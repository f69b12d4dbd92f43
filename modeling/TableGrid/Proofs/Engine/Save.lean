import TableGrid.Engine.Save
import TableGrid.Proofs.Engine.Action
import TableGrid.Proofs.Grid.Cells
import TableGrid.Proofs.Overlay.Entries

/-!
# What a save does

A save begins if the grid is fresh and has the cell (`Engine.canSave`).  These lemmas say exactly
what is left when it has begun, when its answer has come in, and when the service has refused:
then the grid and the overlay are the ones from before.

## Key results

- `beginSave_of_canSave`: what is shown while a save is under way
- `finishSave_eq`: what an answer does
- `save_of_canSave`: a save with its answer
-/

namespace TableGrid

namespace Saves

/-- Retiring the ticket just issued leaves the saves of the other cells. -/
theorem complete_issue (s : Saves) (p : Coord) (c : Content) :
    (s.issue p c).2.complete (s.issue p c).1 = ⟨s.latest.erase p, s.issued + 1⟩ := by
  have hlatest : (s.issue p c).2.isLatest (s.issue p c).1 = true := by
    simp [isLatest, issue]
  rw [complete, if_pos hlatest]
  simp only [issue, mk.injEq, and_true]
  apply Std.ExtTreeMap.ext_getElem?
  intro q
  simp only [Std.ExtTreeMap.getElem?_erase, Std.ExtTreeMap.getElem?_insert]
  split <;> rfl

end Saves

namespace Engine

variable {σ : Type} {e : Engine σ} {p : Coord}

/-- Whether a save of a cell can begin. -/
def canSave (e : Engine σ) (p : Coord) : Bool := !e.stale && e.grid.contains p

theorem canSave_iff : e.canSave p = true ↔ e.stale = false ∧ e.grid.contains p = true := by
  simp [canSave]

/-- The engine while a save is under way. -/
def begun (e : Engine σ) (p : Coord) (c : Content) : Engine σ :=
  { e with
    grid := e.grid.setContent p c
    overlay := e.overlay.setContent p c
    saves := (e.saves.issue p c).2 }

/-- Whether the answer to a ticket would be brought in. -/
def accepts (e : Engine σ) (t : Ticket) : Bool :=
  e.saves.isLatest t && !e.stale && e.shows t.coord t.content

theorem shows_iff {c : Content} :
    e.shows p c = true ↔ ∃ cell, e.grid.get? p = some cell ∧ cell.content.agrees c = true := by
  unfold shows
  cases e.grid.get? p <;> simp

/-- The engine when the answer to a ticket has come in. -/
def finished (e : Engine σ) (t : Ticket) (persisted : Content) : Engine σ :=
  if e.accepts t && !persisted.agrees t.content then
    { e with
      saves := e.saves.complete t
      grid := e.grid.setContent t.coord persisted
      overlay := e.overlay.setContent t.coord persisted }
  else { e with saves := e.saves.complete t }

/-- The engine when the service has refused a save. -/
def refused (e : Engine σ) (p : Coord) : Engine σ :=
  { e with saves := ⟨e.saves.latest.erase p, e.saves.issued + 1⟩ }

theorem cell_eq_ok_iff {g : Grid} {p : Coord} {cell : Cell} :
    g.cell p = .ok cell ↔ g.get? p = some cell := by
  unfold Grid.cell
  split
  · rename_i h
    have hnone : g.get? p = none := by
      rw [Grid.get?_eq_none_iff, Bool.eq_false_iff]
      intro hin
      have := (Grid.contains_iff.1 hin).1
      omega
    simp [hnone]
  · cases g.get? p <;> simp

/-! ## Beginning -/

theorem beginSave_of_canSave (c : Content) (h : e.canSave p = true) :
    beginSave p c e = .ok ⟨p, e.saves.issued + 1, c⟩ (e.begun p c) := by
  obtain ⟨hfresh, hin⟩ := canSave_iff.1 h
  have hcell := cell_eq_ok_iff.2 (Grid.get?_of_contains hin)
  rw [beginSave, bind_apply, ensureFresh_apply, if_neg (by rw [hfresh]; decide)]
  simp only [bind_apply, get_apply, hcell, ofExcept_ok, set_apply, pure_apply]
  rfl

theorem beginSave_of_not_canSave (c : Content) (h : e.canSave p = false) :
    ∃ error, beginSave p c e = .error (.failed error) e := by
  -- The guard fails on a stale grid, and looking up the cell on a fresh one.
  cases hstale : e.stale with
  | true =>
    refine ⟨.stale, ?_⟩
    simp only [beginSave, bind_apply, ensureFresh_apply, hstale, if_true]
  | false =>
    have hout : e.grid.contains p = false := by simpa [canSave, hstale] using h
    cases hcell : e.grid.cell p with
    | ok cell =>
      rw [cell_eq_ok_iff, Grid.get?_eq_none_iff.2 hout] at hcell
      cases hcell
    | error cause =>
      refine ⟨.table cause, ?_⟩
      simp only [beginSave, bind_apply, ensureFresh_apply, hstale, Bool.false_eq_true, if_false,
        get_apply, hcell, ofExcept_error]

/-! ## Answers -/

/-- An answer always retires its ticket, and is brought in if the ticket is accepted. -/
theorem finishSave_eq (e : Engine σ) (t : Ticket) (persisted : Content) :
    finishSave t persisted e =
      .ok (if e.accepts t then .applied persisted else .superseded) (e.finished t persisted) := by
  simp only [finishSave, bind_apply, get_apply]
  change (if (!e.accepts t) = true then _ else _ : Action σ SaveOutcome) e = _
  unfold finished
  cases e.accepts t with
  | false => rfl
  | true =>
    cases hagrees : persisted.agrees t.content with
    | false =>
      simp only [Bool.not_true, Bool.false_eq_true, if_false]
      rfl
    | true =>
      simp only [Bool.not_true, Bool.false_eq_true, if_false, if_true]
      rfl

/-- What was shown before a save began comes back. -/
theorem restored_begun (c : Content) (store : σ) (saves : Saves)
    (hin : e.grid.contains p = true) :
    ({ e.begun p c with store, saves } : Engine σ).restored p (e.grid.get? p)
      (e.overlay.getAt? p) = { e with store, saves } := by
  have hgrid : (e.grid.setContent p c).setContent p (e.grid.cellAt p).content = e.grid := by
    rw [Grid.setContent_setContent, Grid.setContent_self (Grid.get?_of_contains hin)]
  cases hget : e.overlay.getAt? p with
  | some entry =>
    simp only [restored, begun, Grid.get?_of_contains hin, hgrid,
      Overlay.insert_setContent c hget]
  | none =>
    simp only [restored, begun, Grid.get?_of_contains hin, hgrid, Overlay.erase_setContent c hget]

/-! ## Saves through a service -/

/-- A save that cannot begin does not reach the service. -/
theorem save_of_not_canSave (service : Service σ) (c : Content) (h : e.canSave p = false) :
    ∃ error, save service p c e = .error (.failed error) e := by
  obtain ⟨error, hbegin⟩ := beginSave_of_not_canSave c h
  refine ⟨error, ?_⟩
  simp only [save, bind_apply, get_apply, hbegin]

/-- A save is shown while it is under way; the answer is brought in, and a refusal takes back
    what was shown. -/
theorem save_of_canSave (service : Service σ) (c : Content) (h : e.canSave p = true) :
    save service p c e =
      match service.save p c e.store with
      | (.answered persisted, store) =>
        finishSave ⟨p, e.saves.issued + 1, c⟩ persisted { e.begun p c with store }
      | (.failed cause, store) =>
        .error (.failed (.saveFailed p cause)) { e.refused p with store }
      | (.unanswered, store) => .error .abandoned { e.begun p c with store } := by
  obtain ⟨hfresh, hin⟩ := canSave_iff.1 h
  have hlatest : (e.begun p c).saves.isLatest ⟨p, e.saves.issued + 1, c⟩ = true := by
    simp [Saves.isLatest, begun, Saves.issue]
  have hbegin := beginSave_of_canSave c h
  rcases hreply : service.save p c e.store with ⟨reply, store⟩
  cases reply with
  | answered persisted =>
    have hask := @ask_of_answered _ _ (service.save p c) (e.begun p c) _ _ hreply
    simp only [save, bind_apply, get_apply, hbegin, hask]
  | unanswered =>
    have hask := @ask_of_unanswered _ _ (service.save p c) (e.begun p c) _ hreply
    simp only [save, bind_apply, get_apply, hbegin, hask]
  | failed cause =>
    have hask := @ask_of_failed _ _ (service.save p c) (e.begun p c) _ _ hreply
    -- Nothing happens while the service works, so the ticket is still the newest one.
    have hrestores : ((e.begun p c).saves.isLatest ⟨p, e.saves.issued + 1, c⟩ &&
        !(e.begun p c).stale) = true := by
      rw [hlatest, show (e.begun p c).stale = e.stale from rfl, hfresh]
      rfl
    have hsaves := Saves.complete_issue e.saves p c
    have hrestored := restored_begun c store ⟨e.saves.latest.erase p, e.saves.issued + 1⟩ hin
    simp only [save, bind_apply, get_apply, hbegin, hask, set_apply, fail_apply, hrestores, if_true]
    rw [← hsaves] at hrestored
    refine congrArg (EStateM.Result.error _) (hrestored.trans ?_)
    rw [hsaves]
    rfl

/-- The ways in which a save can go. -/
theorem after_save_cases (service : Service σ) (e : Engine σ) (p : Coord) (c : Content) :
    (e.canSave p = false ∧ after (save service p c) e = e) ∨
      (e.canSave p = true ∧ ∃ store,
        ((∃ persisted, service.save p c e.store = (.answered persisted, store) ∧
            after (save service p c) e =
              ({ e.begun p c with store } : Engine σ).finished
                ⟨p, e.saves.issued + 1, c⟩ persisted) ∨
          (∃ cause, service.save p c e.store = (.failed cause, store) ∧
            after (save service p c) e = { e.refused p with store }) ∨
          (service.save p c e.store = (.unanswered, store) ∧
            after (save service p c) e = { e.begun p c with store }))) := by
  cases h : e.canSave p with
  | false =>
    obtain ⟨error, herror⟩ := save_of_not_canSave service c h
    exact .inl ⟨rfl, after_eq_of_error herror⟩
  | true =>
    have hsave := save_of_canSave service c h
    rcases hreply : service.save p c e.store with ⟨reply, store⟩
    rw [hreply] at hsave
    refine .inr ⟨rfl, store, ?_⟩
    cases reply with
    | answered persisted =>
      simp only [finishSave_eq] at hsave
      exact .inl ⟨persisted, rfl, after_eq_of_ok hsave⟩
    | failed cause => exact .inr (.inl ⟨cause, rfl, after_eq_of_error hsave⟩)
    | unanswered => exact .inr (.inr ⟨rfl, after_eq_of_error hsave⟩)

end Engine

end TableGrid
