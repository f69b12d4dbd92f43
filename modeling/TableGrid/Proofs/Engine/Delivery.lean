import Mathlib.Data.List.Nodup
import TableGrid.Proofs.Engine.Save
import TableGrid.Proofs.Saves

/-!
# The order of answers

Several saves may be under way when their answers come in.  Whatever the order in which these are
delivered, the same engine is left, and each ticket meets the same fate: the newest one of its cell
is brought in, and all others are superseded.

## Key results

- `finished_comm`: two answers may be delivered in either order
- `UnderWay.begun`: one more save supersedes the tickets of its cell and no others
- `finishSaves_perm`: answers delivered in any order
-/

namespace TableGrid

/-- Whether a ticket is the newest one of its cell among all that were issued. -/
def Ticket.IsNewest (t : Ticket) (tickets : List Ticket) : Prop :=
  ∀ t' ∈ tickets, t'.coord = t.coord → t'.generation ≤ t.generation

instance (t : Ticket) (tickets : List Ticket) : Decidable (t.IsNewest tickets) :=
  inferInstanceAs (Decidable (∀ t' ∈ tickets, _ → _))

theorem Ticket.isNewest_concat {t t' : Ticket} {tickets : List Ticket} :
    t.IsNewest (tickets ++ [t']) ↔
      t.IsNewest tickets ∧ (t'.coord = t.coord → t'.generation ≤ t.generation) := by
  simp [IsNewest, or_imp, forall_and]

namespace Engine

variable {σ : Type} {e : Engine σ} {t t' : Ticket} {tickets order : List Ticket}
  {p : Coord} {c : Content}

/-- Begin a save for each of the cells and contents requested. -/
def beginSaves (requests : List (Coord × Content)) : Action σ (List Ticket) :=
  requests.mapM fun request => beginSave request.1 request.2

/-- Deliver the answers to tickets one after the other. -/
def finishSaves (answer : Ticket → Content) (order : List Ticket) : Action σ (List SaveOutcome) :=
  order.mapM fun t => finishSave t (answer t)

/-! ## Two answers -/

theorem isLatest_of_accepts (h : e.accepts t = true) : e.saves.isLatest t = true :=
  (Bool.and_eq_true_iff.1 (Bool.and_eq_true_iff.1 h).1).1

/-- An answer does not decide about tickets of other generations. -/
theorem accepts_finished (hne : t.generation ≠ t'.generation) (persisted : Content) :
    (e.finished t' persisted).accepts t = e.accepts t := by
  unfold finished
  split
  · rename_i hwrites
    -- A content is written only for the newest ticket of the cell, which the other one is not.
    by_cases hcoord : t'.coord = t.coord
    · have hlatest' := isLatest_of_accepts (Bool.and_eq_true_iff.1 hwrites).1
      have hlatest : e.saves.isLatest t = false := by
        rw [Bool.eq_false_iff]
        intro hlatest
        exact hne (Saves.generation_eq_of_isLatest hlatest hlatest' hcoord.symm)
      simp only [accepts, Saves.isLatest_complete hne, hlatest, Bool.false_and]
    · simp only [accepts, shows, Saves.isLatest_complete hne, Grid.get?_setContent, if_neg hcoord]
  · simp only [accepts, shows, Saves.isLatest_complete hne]

/-- Answers to two tickets may be delivered in either order. -/
theorem finished_comm (hne : t.generation ≠ t'.generation) (c c' : Content) :
    (e.finished t c).finished t' c' = (e.finished t' c').finished t c := by
  have haccepts := accepts_finished (e := e) hne c'
  have haccepts' := accepts_finished (e := e) hne.symm c
  have hsaves := e.saves.complete_comm t t'
  -- Whether an answer is written is the same in both orders, so there are four cases, and in three
  -- of them at most one content is written.
  cases hwrites : e.accepts t && !c.agrees t.content <;>
    cases hwrites' : e.accepts t' && !c'.agrees t'.content <;>
    simp only [finished, hwrites, hwrites', if_true, if_false, Bool.false_eq_true]
      at haccepts haccepts' ⊢ <;>
    simp only [haccepts, haccepts', hwrites, hwrites', if_true, if_false, Bool.false_eq_true,
      hsaves]
  -- Where both contents are written, the cells are different ones.
  have hlatest := isLatest_of_accepts (Bool.and_eq_true_iff.1 hwrites).1
  have hlatest' := isLatest_of_accepts (Bool.and_eq_true_iff.1 hwrites').1
  have hcoord : t.coord ≠ t'.coord := fun heq =>
    hne (Saves.generation_eq_of_isLatest hlatest hlatest' heq)
  rw [Grid.setContent_comm _ hcoord, Overlay.setContent_comm _ hcoord]

/-! ## Any number of answers -/

/-- The engine when the answers to tickets have come in. -/
def finishedAll (e : Engine σ) (answer : Ticket → Content) (order : List Ticket) : Engine σ :=
  order.foldl (fun e t => e.finished t (answer t)) e

/-- Each answer is decided on as if it were the only one. -/
theorem finishSaves_eq (e : Engine σ) (answer : Ticket → Content)
    (hdistinct : (order.map (·.generation)).Nodup) :
    finishSaves answer order e =
      .ok (order.map fun t => if e.accepts t then .applied (answer t) else .superseded)
        (e.finishedAll answer order) := by
  induction order generalizing e with
  | nil => rfl
  | cons t order ih =>
    obtain ⟨hhead, htail⟩ := List.nodup_cons.1 hdistinct
    -- The induction is on the order with any engine, and goes on from what the first answer leaves.
    have hrest := ih (e.finished t (answer t)) htail
    -- That answer does not change what is accepted later.
    have haccepts : ∀ t' ∈ order, (e.finished t (answer t)).accepts t' = e.accepts t' := by
      intro t' ht'
      apply accepts_finished
      intro heq
      exact hhead (List.mem_map.2 ⟨t', ht', heq⟩)
    rw [List.map_congr_left fun t' ht' => by rw [haccepts t' ht']] at hrest
    rw [finishSaves] at hrest ⊢
    simp only [List.mapM_cons, bind_apply, finishSave_eq, hrest, pure_apply]
    rfl

/-- The engine left does not depend on the order. -/
theorem finishedAll_perm (e : Engine σ) (answer : Ticket → Content) (h : order.Perm tickets)
    (hdistinct : (tickets.map (·.generation)).Nodup) :
    e.finishedAll answer order = e.finishedAll answer tickets := by
  refine (h.symm.foldl_eq' ?_ e).symm
  intro t ht t' ht' e
  by_cases heq : t = t'
  · rw [heq]
  · exact finished_comm (fun hgen => heq (List.inj_on_of_nodup_map hdistinct ht ht' hgen)) _ _

/-! ## Saves under way -/

/-- Whether tickets were issued one after the other and an engine accepts the newest ones of them,
    and no others. -/
structure UnderWay (e : Engine σ) (tickets : List Ticket) : Prop where
  fresh : e.stale = false
  increasing : tickets.Pairwise (·.generation < ·.generation)
  generation_le : ∀ t ∈ tickets, t.generation ≤ e.saves.issued
  accepts_iff : ∀ t ∈ tickets, (e.accepts t = true ↔ t.IsNewest tickets)

theorem underWay_nil (h : e.stale = false) : e.UnderWay [] where
  fresh := h
  increasing := .nil
  generation_le := by simp
  accepts_iff := by simp

/-- The ticket of a save that begins is accepted. -/
theorem accepts_begun_self (h : e.canSave p = true) (hc : c.agrees c = true) :
    (e.begun p c).accepts ⟨p, e.saves.issued + 1, c⟩ = true := by
  obtain ⟨hfresh, hin⟩ := canSave_iff.1 h
  have hlatest : (e.begun p c).saves.isLatest ⟨p, e.saves.issued + 1, c⟩ = true := by
    simp [Saves.isLatest, begun, Saves.issue]
  have hshows : (e.begun p c).shows p c = true := by
    refine shows_iff.2 ⟨{ e.grid.cellAt p with content := c }, ?_, hc⟩
    rw [begun, Grid.get?_setContent, if_pos rfl, Grid.get?_of_contains hin]
    rfl
  have hstale : (e.begun p c).stale = false := hfresh
  simp [accepts, hlatest, hshows, hstale]

/-- A save that begins supersedes the older tickets of its cell, and no others. -/
theorem accepts_begun_iff (p : Coord) (c : Content) (h : t.generation ≤ e.saves.issued) :
    (e.begun p c).accepts t = true ↔ e.accepts t = true ∧ p ≠ t.coord := by
  by_cases hcoord : p = t.coord
  · have hgeneration : e.saves.issued + 1 ≠ t.generation := by omega
    simp [accepts, Saves.isLatest, begun, Saves.issue, ← hcoord, hgeneration]
  · simp [accepts, shows, Saves.isLatest, begun, Saves.issue, Std.ExtTreeMap.getElem?_insert,
      Grid.get?_setContent, hcoord]

/-- One more save that begins. -/
theorem UnderWay.begun (h : e.UnderWay tickets) (hin : e.grid.contains p = true)
    (hc : c.agrees c = true) :
    (e.begun p c).UnderWay (tickets ++ [⟨p, e.saves.issued + 1, c⟩]) where
  fresh := h.fresh
  increasing := by
    rw [List.pairwise_append]
    refine ⟨h.increasing, List.pairwise_singleton _ _, ?_⟩
    intro t ht t' ht'
    have := h.generation_le t ht
    rw [List.mem_singleton.1 ht']
    show t.generation < e.saves.issued + 1
    omega
  generation_le := by
    intro t ht
    show t.generation ≤ e.saves.issued + 1
    rcases List.mem_append.1 ht with ht | ht
    · have := h.generation_le t ht
      omega
    · obtain rfl := List.mem_singleton.1 ht
      exact Nat.le_refl _
  accepts_iff := by
    intro t ht
    rw [Ticket.isNewest_concat]
    rcases List.mem_append.1 ht with ht | ht
    -- An older ticket has a smaller generation than the new one.
    · have hle := h.generation_le t ht
      have hlt : ¬e.saves.issued + 1 ≤ t.generation := by omega
      rw [accepts_begun_iff p c hle, h.accepts_iff t ht]
      simp [hlt]
    · obtain rfl := List.mem_singleton.1 ht
      refine iff_of_true (accepts_begun_self (canSave_iff.2 ⟨h.fresh, hin⟩) hc) ⟨?_, by simp⟩
      intro t' ht' _
      have := h.generation_le t' ht'
      show t'.generation ≤ e.saves.issued + 1
      omega

/-- Saves for any cells of the grid all begin. -/
theorem UnderWay.beginSaves {requests : List (Coord × Content)} (h : e.UnderWay tickets)
    (hrequests : ∀ r ∈ requests, e.grid.contains r.1 = true ∧ r.2.agrees r.2 = true) :
    ∃ issued e', beginSaves requests e = .ok issued e' ∧
      issued.map (fun t => (t.coord, t.content)) = requests ∧ e'.UnderWay (tickets ++ issued) := by
  induction requests generalizing e tickets with
  | nil => exact ⟨[], e, rfl, rfl, by rwa [List.append_nil]⟩
  | cons request requests ih =>
    obtain ⟨⟨hin, hc⟩, hrest⟩ := List.forall_mem_cons.1 hrequests
    have hbegin := beginSave_of_canSave request.2 (canSave_iff.2 ⟨h.fresh, hin⟩)
    -- Beginning a save does not change which cells the grid has.
    obtain ⟨issued, e', hissued, hmap, hunder⟩ := ih (h.begun hin hc) fun r hr =>
      ⟨(Grid.contains_setContent ..).trans (hrest r hr).1, (hrest r hr).2⟩
    refine ⟨_ :: issued, e', ?_, ?_, by rwa [List.append_cons]⟩
    · rw [Engine.beginSaves] at hissued ⊢
      simp only [List.mapM_cons, bind_apply, hbegin, hissued, pure_apply]
    · rw [List.map_cons, hmap]

/-- Begin saves for any cells of the grid, several per cell if need be, and deliver their answers.
    Whatever the order of delivery, the same engine is left, and an answer is brought in if and only
    if its ticket is the newest one of its cell; all others are superseded. -/
theorem finishSaves_perm (hfresh : e.stale = false) {requests : List (Coord × Content)}
    (hrequests : ∀ r ∈ requests, e.grid.contains r.1 = true ∧ r.2.agrees r.2 = true)
    (answer : Ticket → Content) :
    ∃ tickets e₁ e₂, beginSaves requests e = .ok tickets e₁ ∧
      tickets.map (fun t => (t.coord, t.content)) = requests ∧
      tickets.Pairwise (·.generation < ·.generation) ∧
      ∀ order, order.Perm tickets →
        finishSaves answer order e₁ =
          .ok (order.map fun t =>
            if t.IsNewest tickets then .applied (answer t) else .superseded) e₂ := by
  obtain ⟨tickets, e₁, hbegin, hmap, hunder⟩ := (underWay_nil hfresh).beginSaves hrequests
  rw [List.nil_append] at hunder
  have hdistinct : (tickets.map (·.generation)).Nodup :=
    List.pairwise_map.2 (hunder.increasing.imp Nat.ne_of_lt)
  refine ⟨tickets, e₁, e₁.finishedAll answer tickets, hbegin, hmap, hunder.increasing, ?_⟩
  intro order hperm
  rw [finishSaves_eq e₁ answer ((hperm.map _).nodup_iff.2 hdistinct),
    finishedAll_perm e₁ answer hperm hdistinct]
  congr 1
  refine List.map_congr_left fun t ht => ?_
  simp only [hunder.accepts_iff t (hperm.mem_iff.1 ht)]

/-- Two saves of one cell with one of another between them. -/
theorem finishSaves_perm_overlapping :
    let e : Engine Unit := opened (.ofSize 1 2) () {}
    ∃ tickets e₁ e₂, beginSaves [(⟨0, 0⟩, .text "x"), (⟨0, 1⟩, .text "y"), (⟨0, 0⟩, .text "z")] e =
        .ok tickets e₁ ∧
      tickets.map (fun t => (t.coord, t.content)) =
        [(⟨0, 0⟩, .text "x"), (⟨0, 1⟩, .text "y"), (⟨0, 0⟩, .text "z")] ∧
      tickets.Pairwise (·.generation < ·.generation) ∧
      ∀ order, order.Perm tickets →
        finishSaves (fun _ => .text "X") order e₁ =
          .ok (order.map fun t =>
            if t.IsNewest tickets then .applied (.text "X") else .superseded) e₂ :=
  finishSaves_perm rfl (by decide +kernel) fun _ => .text "X"

end Engine

end TableGrid
