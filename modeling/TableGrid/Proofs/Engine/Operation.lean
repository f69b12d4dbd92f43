import TableGrid.Engine.Attribute
import TableGrid.Engine.Reshape
import TableGrid.Proofs.Engine.Interaction

/-!
# Runs of an engine

An `Operation` is what the owner of an engine asks of it, answered or not.  A run carries out one
after the other.  What each of them leaves is said once, as equations and case distinctions, so that
properties of runs need not open the operations.

## Key results

- `run_concat`: the last operation of a run
- `reshape_cases`: how a change of shape can go
- `onSelection_eq`, `changeAttributes_cases`: how a change of the selected cells can go
- `options_run`: the options stay as they are
-/

namespace TableGrid

/-- A change of shape as it is asked for; a missing index stands for the last row or column. -/
inductive ShapeRequest where
  | addRow (index? : Option Nat)
  | removeRow (index? : Option Nat)
  | addColumn (index? : Option Nat)
  | removeColumn (index? : Option Nat)

/-- Ask for a change of shape. -/
def ShapeRequest.send {σ : Type} (service : Service σ) : ShapeRequest → Action σ Unit
  | .addRow index? => Engine.addRow service index?
  | .removeRow index? => Engine.removeRow service index?
  | .addColumn index? => Engine.addColumn service index?
  | .removeColumn index? => Engine.removeColumn service index?

/-- A change of the attributes of the selected cells. -/
inductive AttributeRequest where
  | set (name text : String)
  | clear (name : String)
  | clearAll

/-- What a change of attributes does to the overlay at one cell. -/
def AttributeRequest.change : AttributeRequest → Overlay → Coord → Overlay
  | .set name text => fun o p => o.setAttribute p name text
  | .clear name => fun o p => o.clearAttribute p name
  | .clearAll => fun o p => o.clearAttributes p

/-- Ask for a change of the attributes of the selected cells. -/
def AttributeRequest.send {σ : Type} : AttributeRequest → Action σ Unit
  | .set name text => Engine.setAttribute name text
  | .clear name => Engine.clearAttribute name
  | .clearAll => Engine.clearAttributes

/-- An operation of an engine. -/
inductive Operation where
  | interact (i : Interaction)
  | beginSave (p : Coord) (c : Content)
  | finishSave (ticket : Ticket) (persisted : Content)
  | abandonSave (ticket : Ticket)
  | changeShape (request : ShapeRequest)
  | changeAttributes (request : AttributeRequest)
  | rebuild
  | replaceTable (table : Table)

namespace Engine

variable {σ : Type} {service : Service σ} {e : Engine σ}

/-- An engine as it is opened, perhaps with a local overlay. -/
inductive Started : Engine σ → Prop where
  | opened (table : Table) (store : σ) (options : Options) : Started (opened table store options)
  | withOverlay {e : Engine σ} (overlay : Overlay) (h : Started e) :
    Started (e.withOverlay overlay)

/-- Ask for a change of shape, whichever way it ends. -/
def changeShape (service : Service σ) (e : Engine σ) (request : ShapeRequest) : Engine σ :=
  after (request.send service) e

/-- Change the attributes of the selected cells, whichever way it ends. -/
def changeAttributes (e : Engine σ) (request : AttributeRequest) : Engine σ :=
  after request.send e

/-- Carry out an operation, whichever way it ends. -/
def perform (service : Service σ) (e : Engine σ) : Operation → Engine σ
  | .interact i => e.interact service i
  | .beginSave p c => after (beginSave p c) e
  | .finishSave ticket persisted => after (finishSave ticket persisted) e
  | .abandonSave ticket => after (abandonSave ticket) e
  | .changeShape request => e.changeShape service request
  | .changeAttributes request => e.changeAttributes request
  | .rebuild => after rebuild e
  | .replaceTable table => after (replaceTable table) e

/-- Carry out operations one after the other. -/
def run (service : Service σ) (e : Engine σ) (ops : List Operation) : Engine σ :=
  ops.foldl (perform service) e

theorem run_concat (service : Service σ) (e : Engine σ) (ops : List Operation) (op : Operation) :
    run service e (ops ++ [op]) = perform service (run service e ops) op := by
  rw [run, List.foldl_append]
  rfl

/-! ## Single operations -/

theorem after_beginSave (p : Coord) (c : Content) (e : Engine σ) :
    after (beginSave p c) e = if e.canSave p then e.begun p c else e := by
  cases h : e.canSave p with
  | true => exact after_eq_of_ok (beginSave_of_canSave c h)
  | false =>
    obtain ⟨error, herror⟩ := beginSave_of_not_canSave c h
    exact after_eq_of_error herror

theorem after_finishSave (ticket : Ticket) (persisted : Content) (e : Engine σ) :
    after (finishSave ticket persisted) e = e.finished ticket persisted :=
  after_eq_of_ok (finishSave_eq e ticket persisted)

/-- How a change of shape can go. -/
theorem reshape_cases (service : Service σ) (r : Reshape) (e : Engine σ) :
    ∃ store,
      (∃ table, service.reshape r e.store = (.answered table, store) ∧
        after (reshape service r) e =
          rebuilt { e.awaitingShape with store, table, overlay := e.overlay.reshape r }) ∨
      (∃ cause, service.reshape r e.store = (.failed cause, store) ∧
        after (reshape service r) e = { e.awaitingShape with store, stale := false }) ∨
      (service.reshape r e.store = (.unanswered, store) ∧
        after (reshape service r) e = { e.awaitingShape with store }) := by
  rcases hreply : service.reshape r e.store with ⟨reply, store⟩
  refine ⟨store, ?_⟩
  unfold after
  simp only [reshape, bind_apply, modify_apply]
  cases reply with
  | answered table =>
    have hask := @ask_of_answered _ _ (service.reshape r) e.awaitingShape _ _ hreply
    exact .inl ⟨table, rfl, by simp only [hask]; rfl⟩
  | failed cause =>
    have hask := @ask_of_failed _ _ (service.reshape r) e.awaitingShape _ _ hreply
    exact .inr (.inl ⟨cause, rfl, by simp only [hask]; rfl⟩)
  | unanswered =>
    have hask := @ask_of_unanswered _ _ (service.reshape r) e.awaitingShape _ hreply
    exact .inr (.inr ⟨rfl, by simp only [hask]⟩)

/-- The change of shape that goes to the service.  A grid of fewer than two rows keeps them. -/
def reshape? (e : Engine σ) : ShapeRequest → Option Reshape
  | .addRow index? => some (.insertRow (index?.getD e.table.extent.1))
  | .removeRow index? =>
    if 2 ≤ e.grid.height then some (.removeRow (index?.getD (e.table.extent.1 - 1))) else none
  | .addColumn index? => some (.insertColumn (index?.getD e.table.extent.2))
  | .removeColumn index? => some (.removeColumn (index?.getD (e.table.extent.2 - 1)))

/-- A request goes to the service, or nothing happens. -/
theorem send_eq (service : Service σ) (request : ShapeRequest) (e : Engine σ) :
    request.send service e =
      match e.reshape? request with
      | some r => reshape service r e
      | none => .ok () e := by
  cases request with
  | addRow index? => rfl
  | addColumn index? => rfl
  | removeColumn index? => rfl
  | removeRow index? =>
    rw [ShapeRequest.send, removeRow, bind_apply]
    simp only [get_apply, reshape?]
    split <;> rfl

theorem changeShape_eq (service : Service σ) (e : Engine σ) (request : ShapeRequest) :
    e.changeShape service request =
      match e.reshape? request with
      | some r => after (reshape service r) e
      | none => e := by
  rw [changeShape, after, send_eq]
  cases e.reshape? request <;> rfl

/-- How a change of the selected cells goes. -/
theorem onSelection_eq (change : Overlay → Coord → Overlay) (e : Engine σ) :
    onSelection change e =
      if e.stale then .error (.failed .stale) e
      else match e.cursor.selection with
        | some selection =>
          .ok () (rebuilt { e with overlay := selection.cells.foldl change e.overlay })
        | none => .error (.failed .nothingActive) e := by
  rw [onSelection, bind_apply, ensureFresh_apply]
  by_cases hstale : e.stale = true
  · rw [if_pos hstale, if_pos hstale]
  · rw [if_neg hstale, if_neg hstale]
    simp only [bind_apply, get_apply]
    cases e.cursor.selection <;> rfl

/-- Attributes are changed cell by cell. -/
theorem send_eq_onSelection (request : AttributeRequest) :
    (request.send : Action σ Unit) = onSelection request.change := by
  cases request <;> rfl

/-- A change of attributes comes about if something is selected and the grid is not stale. -/
theorem send_of_selection {selection : Selection} (hfresh : e.stale = false)
    (hselection : e.cursor.selection = some selection) (request : AttributeRequest) :
    request.send e =
      .ok () (rebuilt { e with overlay := selection.cells.foldl request.change e.overlay }) := by
  rw [send_eq_onSelection, onSelection_eq, if_neg (ne_true_of_eq_false hfresh), hselection]

/-- A change of attributes builds the grid again, or changes nothing at all. -/
theorem changeAttributes_cases (e : Engine σ) (request : AttributeRequest) :
    e.changeAttributes request = e ∨
      ∃ selection, e.cursor.selection = some selection ∧
        e.changeAttributes request =
          rebuilt { e with overlay := selection.cells.foldl request.change e.overlay } := by
  rw [changeAttributes, send_eq_onSelection, after, onSelection_eq]
  by_cases hstale : e.stale = true
  · rw [if_pos hstale]
    exact .inl rfl
  · rw [if_neg hstale]
    cases e.cursor.selection with
    | none => exact .inl rfl
    | some selection => exact .inr ⟨selection, rfl, rfl⟩

/-! ## The options -/

/-- A save leaves the options, and a stale grid stale. -/
theorem unchanged_save (service : Service σ) (e : Engine σ) (p : Coord) (c : Content) :
    (after (save service p c) e).options = e.options ∧
      (after (save service p c) e).stale = e.stale := by
  rcases after_save_cases service e p c with
    ⟨-, heq⟩ | ⟨-, store, ⟨persisted, -, heq⟩ | ⟨cause, -, heq⟩ | ⟨-, heq⟩⟩
  · rw [heq]
    exact ⟨rfl, rfl⟩
  · rw [heq, finished]
    split <;> exact ⟨rfl, rfl⟩
  · rw [heq]
    exact ⟨rfl, rfl⟩
  · rw [heq]
    exact ⟨rfl, rfl⟩

theorem options_reshape (service : Service σ) (r : Reshape) (e : Engine σ) :
    (after (reshape service r) e).options = e.options := by
  obtain ⟨store, ⟨table, -, heq⟩ | ⟨cause, -, heq⟩ | ⟨-, heq⟩⟩ := reshape_cases service r e <;>
    rw [heq] <;> rfl

/-- No operation touches the options. -/
theorem options_perform (service : Service σ) (e : Engine σ) (op : Operation) :
    (perform service e op).options = e.options := by
  cases op with
  | interact i =>
    refine (congrArg Sheet.options (sheet_interact service e i)).trans ?_
    cases i.saving? e with
    | none => rfl
    | some save => exact (unchanged_save service e save.1 save.2).1
  | beginSave p c =>
    rw [perform, after_beginSave]
    split <;> rfl
  | finishSave ticket persisted =>
    rw [perform, after_finishSave, finished]
    split <;> rfl
  | abandonSave ticket => rfl
  | changeShape request =>
    rw [perform, changeShape_eq]
    split
    · exact options_reshape service _ e
    · rfl
  | changeAttributes request =>
    rw [perform]
    rcases changeAttributes_cases e request with heq | ⟨selection, -, heq⟩ <;> rw [heq]
    rfl
  | rebuild => rfl
  | replaceTable table => rfl

theorem options_run (service : Service σ) (e : Engine σ) (ops : List Operation) :
    (run service e ops).options = e.options := by
  induction ops generalizing e with
  | nil => rfl
  | cons op ops ih => rw [run, List.foldl_cons, ← run, ih, options_perform]

end Engine

end TableGrid
