import TableGrid.Cursor.Basic
import TableGrid.Editor
import TableGrid.Grid.Build
import TableGrid.Saves
import TableGrid.Service.Basic
import TableGrid.Style.Cascade

/-! # The engine of an open table

An `Engine` holds one table that is shown and edited: the table, the local overlay on top of
it, the grid built from both, the cursor, the editor, the saves under way and the state of the
document service.  While a change of shape waits for its answer the grid is `stale`.

An operation is an `Action`.  It ends with a value, with an error, or is abandoned because the
service never answers; whichever way it ends, the engine is left as it was at that point.
-/

namespace TableGrid

/-- Why an operation of the engine fails. -/
inductive EngineError where
  | table (cause : TableError)
  | reshapeFailed (reshape : Reshape) (cause : ServiceFailure)
  | saveFailed (coord : Coord) (cause : ServiceFailure)
  | loadFailed (coord : Coord) (cause : ServiceFailure)
  /-- A change of shape waits for its answer. -/
  | stale
  | nothingActive
  | conflict (cause : PhaseConflict)
deriving DecidableEq, Repr

namespace EngineError

/-- The wording of an error. -/
def message : EngineError → String
  | table cause => "Table error: " ++ cause.message
  | reshapeFailed r cause => r.description ++ " failed: " ++ cause.message
  | saveFailed p cause => "Saving cell " ++ p.address ++ " failed: " ++ cause.message
  | loadFailed p cause => "Loading cell " ++ p.address ++ " failed: " ++ cause.message
  | stale => "Table is waiting for a rebuild after a structural edit"
  | nothingActive => "No active cell"
  | conflict cause => cause.message

/-- The wording of the error behind an error, if there is one. -/
def causeMessage? : EngineError → Option String
  | table cause => some cause.message
  | reshapeFailed _ cause | saveFailed _ cause | loadFailed _ cause => some cause.message
  | stale | nothingActive | conflict _ => none

end EngineError

/-- How an operation ends without a value. -/
inductive Interruption where
  | failed (error : EngineError)
  /-- The service never answered. -/
  | abandoned
deriving DecidableEq, Repr

/-- An open table over a service with state `σ`. -/
structure Engine (σ : Type) where
  /-- The state of the service. -/
  store : σ
  table : Table
  overlay : Overlay
  options : Options
  grid : Grid
  cursor : Cursor
  editor : Editor
  saves : Saves
  stale : Bool

/-- An operation of an engine. -/
abbrev Action (σ α : Type) := EStateM Interruption (Engine σ) α

namespace Engine

variable {σ α : Type}

/-! ### Building blocks -/

/-- End with an error. -/
def fail (error : EngineError) : Action σ α := throw (.failed error)

/-- The value of a result, or its error. -/
def ofExcept {ε : Type} (wrap : ε → EngineError) : Except ε α → Action σ α
  | .ok value => pure value
  | .error cause => fail (wrap cause)

/-- The value of an option, or an error for `none`. -/
def orFail (error : EngineError) : Option α → Action σ α
  | some value => pure value
  | none => fail error

/-- Run an operation and hand out its error instead of failing.  An abandoned operation stays
    abandoned. -/
def attempt (action : Action σ α) : Action σ (Except EngineError α) := fun e =>
  match action e with
  | .ok value e => .ok (.ok value) e
  | .error (.failed error) e => .ok (.error error) e
  | .error .abandoned e => .error .abandoned e

/-- Send a request to the service.  Without an answer the operation is abandoned. -/
def ask (request : σ → Reply α × σ) : Action σ (Except ServiceFailure α) := fun e =>
  let (reply, store) := request e.store
  let e := { e with store }
  match reply with
  | .answered value => .ok (.ok value) e
  | .failed cause => .ok (.error cause) e
  | .unanswered => .error .abandoned e

/-- Change the editor by a step that not every phase allows. -/
def edit (step : Editor → Except PhaseConflict Editor) : Action σ Unit := do
  let editor ← ofExcept .conflict (step (← get).editor)
  modify fun e => { e with editor }

/-- Fail while the grid is stale. -/
def ensureFresh : Action σ Unit := do
  if (← get).stale then fail .stale

/-- Fail while an editor is open. -/
def ensureClosed (action : EditAction) : Action σ Unit := do
  let editor := (← get).editor
  if editor.phase.isEditing then fail (.conflict (editor.conflict action))

/-! ### Opening and rebuilding -/

/-- Build the grid from the table and the overlay, and bring the cursor onto it. -/
def rebuilt (e : Engine σ) : Engine σ :=
  let grid := e.table.grid [e.overlay] e.options
  { e with grid, cursor := e.cursor.revalidate grid, stale := false }

/-- Open a table. -/
def opened (table : Table) (store : σ) (options : Options) : Engine σ :=
  rebuilt {
    store, table, options
    overlay := .empty
    grid := .empty
    cursor := .cleared
    editor := .idle
    saves := .none
    stale := true }

/-- Take another local overlay. -/
def withOverlay (e : Engine σ) (overlay : Overlay) : Engine σ := rebuilt { e with overlay }

/-- Rebuild the grid. -/
def rebuild : Action σ Unit := modify rebuilt

/-- Take another table.  Saves under way are forgotten. -/
def replaceTable (table : Table) : Action σ Unit :=
  modify fun e => rebuilt { e with table, saves := e.saves.clear }

/-! ### Views -/

/-- The grid, unless it is stale. -/
def freshGrid : Action σ Grid := do
  ensureFresh
  return (← get).grid

/-- The style of a cell. -/
def cellStyle (p : Coord) : Action σ Style := do
  let grid ← freshGrid
  let e ← get
  return e.table.cellStyle grid e.options p

/-- The style of a row. -/
def rowStyle (row : Nat) : Action σ Style := do
  return (← get).table.rowStyle (← freshGrid) row

/-- The style of a column. -/
def colStyle (col : Nat) : Action σ Style := do
  return (← get).table.colStyle (← freshGrid) col

/-- The style of the table. -/
def tableStyle : Action σ Style := do
  ensureFresh
  return (← get).table.tableStyle

/-- The active cell. -/
def active? (e : Engine σ) : Option Coord := e.cursor.active?

/-- Whether a cell lies in the selected rectangle. -/
def isSelected (e : Engine σ) (p : Coord) : Bool :=
  match e.cursor.selection with
  | some s => s.contains p
  | none => false

/-! ### Selecting -/

/-- Select the owner of a cell without opening an editor. -/
def select (p : Coord) (extend : Bool) : Action σ Coord := do
  ensureClosed .select
  ensureFresh
  let e ← get
  let _ ← ofExcept .table (e.grid.cell p)
  let (owner, cursor) ← orFail .nothingActive (e.cursor.click? e.grid p extend)
  modify fun e => { e with cursor }
  edit Editor.select
  return owner

/-- Move the cursor one step; the lock may change even where nothing becomes active. -/
def step (direction : Direction) (extend : Bool) : Action σ Coord := do
  let e ← get
  let (target, cursor) := e.cursor.move e.grid direction extend
  set { e with cursor }
  orFail .nothingActive target

/-- Move the active cell one step while no editor is open. -/
def move (direction : Direction) (extend : Bool) : Action σ Coord := do
  ensureClosed .move
  ensureFresh
  let target ← step direction extend
  edit Editor.select
  return target

end Engine

end TableGrid
