import TableGrid.Proofs.Engine.Operation
import TableGrid.Proofs.Saves

/-!
# The history of an engine

`Engine.events` says which tickets an operation issues, retires or forgets, and `Engine.history`
lists these events over a run.  The saves that an engine keeps are what these events leave.

## Key results

- `saves_perform`: the events of one operation
- `saves_run`, `numbered_history`: the events of a run
- `isLatest_iff_outstanding`: which tickets are still waited for after a run
-/

namespace TableGrid

namespace Engine

variable {σ : Type} {service : Service σ} {e : Engine σ}

/-- The ticket that a save would get. -/
def nextTicket (e : Engine σ) (p : Coord) (c : Content) : Ticket := ⟨p, e.saves.issued + 1, c⟩

/-- The events of a save.  Its ticket is retired when it is answered or refused. -/
def saveEvents (service : Service σ) (e : Engine σ) (p : Coord) (c : Content) : List SaveEvent :=
  if e.canSave p then
    match (service.save p c e.store).1 with
    | .answered _ | .failed _ => [.issued (e.nextTicket p c), .retired (e.nextTicket p c)]
    | .unanswered => [.issued (e.nextTicket p c)]
  else []

/-- The events of an operation. -/
def events (service : Service σ) (e : Engine σ) : Operation → List SaveEvent
  | .interact i =>
    match i.saving? e with
    | some (p, c) => e.saveEvents service p c
    | none => []
  | .beginSave p c => if e.canSave p then [.issued (e.nextTicket p c)] else []
  | .finishSave ticket _ | .abandonSave ticket => [.retired ticket]
  | .changeShape request => if (e.reshape? request).isSome then [.forgotten] else []
  | .replaceTable _ => [.forgotten]
  | .changeAttributes _ | .rebuild => []

/-- The events of a run. -/
def history (service : Service σ) : Engine σ → List Operation → List SaveEvent
  | _, [] => []
  | e, op :: ops => events service e op ++ history service (perform service e op) ops

/-! ## One operation -/

theorem saves_finished (e : Engine σ) (t : Ticket) (persisted : Content) :
    (e.finished t persisted).saves = e.saves.track (.retired t) := by
  unfold finished
  split <;> rfl

theorem saves_save (service : Service σ) (e : Engine σ) (p : Coord) (c : Content) :
    (after (save service p c) e).saves = (e.saveEvents service p c).foldl Saves.track e.saves := by
  -- A refusal drops the ticket just issued, like an answer does.
  rcases after_save_cases service e p c with
    ⟨hcan, heq⟩ | ⟨hcan, store, ⟨persisted, hreply, heq⟩ | ⟨cause, hreply, heq⟩ | ⟨hreply, heq⟩⟩
  · rw [heq, saveEvents, hcan]
    rfl
  · rw [heq, saveEvents, if_pos hcan, hreply, saves_finished]
    rfl
  · rw [heq, saveEvents, if_pos hcan, hreply]
    exact (Saves.complete_issue e.saves p c).symm
  · rw [heq, saveEvents, if_pos hcan, hreply]
    rfl

theorem saves_reshape (service : Service σ) (r : Reshape) (e : Engine σ) :
    (after (reshape service r) e).saves = e.saves.clear := by
  obtain ⟨store, ⟨table, -, heq⟩ | ⟨cause, -, heq⟩ | ⟨-, heq⟩⟩ := reshape_cases service r e <;>
    rw [heq] <;> rfl

/-- The events of an operation are what it does to the saves under way. -/
theorem saves_perform (service : Service σ) (e : Engine σ) (op : Operation) :
    (perform service e op).saves = (e.events service op).foldl Saves.track e.saves := by
  cases op with
  | interact i =>
    refine (congrArg Sheet.saves (sheet_interact service e i)).trans ?_
    rw [events]
    cases i.saving? e with
    | none => rfl
    | some save => exact saves_save service e save.1 save.2
  | beginSave p c =>
    rw [perform, after_beginSave, events]
    split <;> rfl
  | finishSave ticket persisted =>
    rw [perform, after_finishSave, saves_finished]
    rfl
  | abandonSave ticket => rfl
  | changeShape request =>
    rw [perform, changeShape_eq, events]
    cases e.reshape? request with
    | none => rfl
    | some r => exact saves_reshape service r e
  | changeAttributes request =>
    rw [perform]
    rcases changeAttributes_cases e request with heq | ⟨selection, -, heq⟩ <;> rw [heq] <;> rfl
  | rebuild => rfl
  | replaceTable table => rfl

theorem numbered_saveEvents (service : Service σ) (e : Engine σ) (p : Coord) (c : Content) :
    Numbered e.saves (e.saveEvents service p c) := by
  unfold saveEvents
  split
  · split <;> simp [Numbered, nextTicket]
  · trivial

theorem numbered_events (service : Service σ) (e : Engine σ) (op : Operation) :
    Numbered e.saves (e.events service op) := by
  cases op with
  | interact i =>
    rw [events]
    cases i.saving? e with
    | none => trivial
    | some save => exact numbered_saveEvents service e save.1 save.2
  | beginSave p c =>
    rw [events]
    split <;> simp [Numbered, nextTicket]
  | changeShape request =>
    rw [events]
    split <;> simp [Numbered]
  | finishSave ticket persisted => simp [events, Numbered]
  | abandonSave ticket => simp [events, Numbered]
  | changeAttributes request => trivial
  | rebuild => trivial
  | replaceTable table => simp [events, Numbered]

/-! ## Runs -/

theorem saves_run (service : Service σ) (e : Engine σ) (ops : List Operation) :
    (run service e ops).saves = (history service e ops).foldl Saves.track e.saves := by
  induction ops generalizing e with
  | nil => rfl
  | cons op ops ih =>
    rw [run, List.foldl_cons, ← run, ih, history, List.foldl_append, saves_perform]

theorem numbered_history (service : Service σ) (e : Engine σ) (ops : List Operation) :
    Numbered e.saves (history service e ops) := by
  induction ops generalizing e with
  | nil => trivial
  | cons op ops ih =>
    -- The generation issued last is that of the engine after the first operation.
    rw [history, numbered_append, ← saves_perform]
    exact ⟨numbered_events service e op, ih _⟩

theorem Started.saves_eq (h : Started e) : e.saves = .none := by
  induction h with
  | opened => rfl
  | withOverlay overlay h ih => exact ih

/-- After a run a ticket is waited for if and only if nothing has ended it since it was issued. -/
theorem isLatest_iff_outstanding (service : Service σ) (hstart : Started e)
    {ops : List Operation} {t : Ticket} (ht : .issued t ∈ history service e ops) :
    (run service e ops).saves.isLatest t = true ↔ Outstanding (history service e ops) t := by
  have hnumbered := numbered_history service e ops
  rw [hstart.saves_eq] at hnumbered
  rw [saves_run, hstart.saves_eq]
  exact hnumbered.isLatest_iff ht

end Engine

end TableGrid
