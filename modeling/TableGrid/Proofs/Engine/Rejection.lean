import TableGrid.Proofs.Engine.History
import TableGrid.Proofs.Engine.Session
import TableGrid.Proofs.Table.Reshape

/-!
# Changes of shape that the service rejects

When the service rejects a change of shape, the last grid is good again: table, overlay, grid and
options are the ones from before.  Selection, lock, draft and saves under way have been given up by
then, and the tickets of those saves are superseded for good, since no later save gets one of their
generations.

## Key results

- `saves_session`, `numbered_journal`: the saves under way through a session
- `reshape_document_failed_iff`: what the plain service rejects
- `send_rejected`: what is left after a rejection
-/

namespace TableGrid

namespace Engine

variable {σ : Type} {service : Service σ} {e : Engine σ}

/-! ## Tickets of a session -/

/-- The events of a call. -/
def callEvents (service : Service σ) (e : Engine σ) : Call σ → List SaveEvent
  | .perform op => e.events service op
  | .withOverlay _ | .withStore _ => []

/-- The events of a session. -/
def journal (service : Service σ) : Engine σ → List (Call σ) → List SaveEvent
  | _, [] => []
  | e, c :: calls => e.callEvents service c ++ journal service (call service e c) calls

/-- Other overlays and stores leave the saves under way alone. -/
theorem saves_call (service : Service σ) (e : Engine σ) (c : Call σ) :
    (call service e c).saves = (e.callEvents service c).foldl Saves.track e.saves := by
  cases c with
  | perform op => exact saves_perform service e op
  | withOverlay overlay => rfl
  | withStore store => rfl

theorem numbered_callEvents (service : Service σ) (e : Engine σ) (c : Call σ) :
    Numbered e.saves (e.callEvents service c) := by
  cases c with
  | perform op => exact numbered_events service e op
  | withOverlay overlay => trivial
  | withStore store => trivial

theorem saves_session (service : Service σ) (e : Engine σ) (calls : List (Call σ)) :
    (session service e calls).saves = (journal service e calls).foldl Saves.track e.saves := by
  induction calls generalizing e with
  | nil => rfl
  | cons c calls ih =>
    rw [session, List.foldl_cons, ← session, ih, journal, List.foldl_append, saves_call]

theorem numbered_journal (service : Service σ) (e : Engine σ) (calls : List (Call σ)) :
    Numbered e.saves (journal service e calls) := by
  induction calls generalizing e with
  | nil => trivial
  | cons c calls ih =>
    rw [journal, numbered_append, ← saves_call]
    exact ⟨numbered_callEvents service e c, ih _⟩

/-- Answers to tickets of the past come too late, whatever has been saved since. -/
theorem finishSave_of_past {n : Nat} (h : e.saves.Past n) (calls : List (Call σ)) {t : Ticket}
    (ht : t.generation ≤ n) (persisted : Content) :
    ∃ e', finishSave t persisted (session service e calls) = .ok .superseded e' := by
  have hpast : (session service e calls).saves.Past n := by
    rw [saves_session]
    exact h.foldl_track (numbered_journal service e calls)
  have haccepts : (session service e calls).accepts t = false := by
    rw [accepts, hpast.isLatest ht, Bool.false_and, Bool.false_and]
  rw [finishSave_eq, haccepts]
  exact ⟨_, rfl⟩

/-! ## Rejections -/

/-- The plain service rejects the changes that its table has no place for, and keeps the table. -/
theorem reshape_document_failed_iff (document store : Table) (r : Reshape) :
    (∃ cause, Document.service.reshape r document = (.failed cause, store)) ↔
      store = document ∧ ¬document.HasPlace r := by
  rw [← Table.exists_reshape_iff]
  simp only [Document.service]
  cases document.reshape r with
  | ok t' => simp
  | error cause => simp [eq_comm]

/-- The engine when a change of shape has been rejected. -/
def rejected (e : Engine σ) (store : σ) : Engine σ :=
  { e with
    store
    stale := false
    saves := e.saves.clear
    cursor := .cleared
    editor := .selected }

theorem reshape_of_failed {r : Reshape} {cause : ServiceFailure} {store : σ}
    (h : service.reshape r e.store = (.failed cause, store)) :
    reshape service r e = .error (.failed (.reshapeFailed r cause)) (e.rejected store) := by
  have hask := @ask_of_failed _ _ (service.reshape r) e.awaitingShape _ _ h
  simp only [reshape, bind_apply, modify_apply, hask]
  rfl

/-- After any session, let the service reject a change of shape that is sent to it.  The request
    fails with that, and table, overlay, options and grid are the ones from before; the grid is not
    stale, nothing is selected or locked, no editor is open and no save is under way.  The tickets
    issued before are superseded for good, whatever follows.  The plain service rejects exactly what
    its table has no place for, and keeps its table then. -/
theorem send_rejected (service : Service σ) (start : Engine σ) (before : List (Call σ))
    {request : ShapeRequest} {r : Reshape} {cause : ServiceFailure} {store : σ}
    (hsent : (session service start before).reshape? request = some r)
    (hreply : service.reshape r (session service start before).store = (.failed cause, store)) :
    let e := session service start before
    request.send service e = .error (.failed (.reshapeFailed r cause)) (e.rejected store) ∧
      (∀ t, .issued t ∈ journal service start before → ∀ later persisted, ∃ e',
        finishSave t persisted (session service (e.rejected store) later) =
          .ok .superseded e') ∧
      ∀ document kept change,
        (∃ cause, Document.service.reshape change document = (.failed cause, kept)) ↔
          kept = document ∧ ¬document.HasPlace change := by
  intro e
  refine ⟨?_, ?_, reshape_document_failed_iff⟩
  · rw [send_eq, hsent]
    exact reshape_of_failed hreply
  · intro t ht later persisted
    -- The saves are forgotten, but not how many generations have been issued.
    have hpast : (e.rejected store).saves.Past e.saves.issued := Saves.past_clear e.saves
    have hgeneration : t.generation ≤ e.saves.issued := by
      rw [saves_session]
      exact (numbered_journal service start before).generation_le ht
    exact finishSave_of_past hpast later hgeneration persisted

/-- A third row of a table with two is to be removed, with an editor open and a save under way;
    later the same cell is saved again. -/
theorem send_rejected_no_row :
    let start : Engine Table := opened (.ofSize 2 2) (.ofSize 2 2) {}
    let e := session Document.service start
      [.perform (.beginSave ⟨0, 1⟩ (.text "x")), .perform (.interact (.select ⟨0, 0⟩ false)),
        .perform (.interact (.key .f2))]
    let later : List (Call Table) := [.perform (.beginSave ⟨0, 1⟩ (.text "y"))]
    (ShapeRequest.removeRow (some 2)).send Document.service e =
        .error (.failed (.reshapeFailed (.removeRow 2) (.refused (.rowOutOfBounds 2 2))))
          (e.rejected e.store) ∧
      ∃ e', finishSave ⟨⟨0, 1⟩, 1, .text "x"⟩ (.text "x")
        (session Document.service (e.rejected e.store) later) = .ok .superseded e' := by
  intro start e later
  have hsent : e.reshape? (.removeRow (some 2)) = some (.removeRow 2) := by decide +kernel
  have hreply : Document.service.reshape (.removeRow 2) e.store =
      (.failed (.refused (.rowOutOfBounds 2 2)), e.store) := by
    decide +kernel
  obtain ⟨hfails, htickets, -⟩ := send_rejected Document.service start _ hsent hreply
  exact ⟨hfails, htickets _ (by decide +kernel) later _⟩

end Engine

end TableGrid
