import TableGrid.Engine.Save

/-! # Editing through clicks and keys

A click on the active cell, or on any cell while another one is edited inline, commits the
draft under way and opens the inline editor; any other click selects.  Keys move the active
cell, and while a cell is edited inline they commit the draft first and open the editor again
at the destination.  While the expanded editor is open clicks and keys do nothing.
-/

namespace TableGrid

/-- A key of the keyboard. -/
inductive Key where
  | enter (shift : Bool)
  | tab (shift : Bool)
  | escape
  | f2
  | arrow (direction : Direction) (extend : Bool)
deriving DecidableEq, Repr

namespace Engine

variable {σ : Type}

/-! ### Drafts -/

/-- Replace the text of the draft. -/
def updateDraft (text : String) : Action σ Unit := do
  let editor := (← get).editor
  if editor.draft?.isNone then fail (.conflict (editor.conflict .edit))
  modify fun e => { e with editor := e.editor.modifyDraft ({ · with text }) }

/-- Close the inline editor and hand out its draft. -/
def finishEditing : Action σ (Option Draft) := do
  let (draft, editor) ← ofExcept .conflict (← get).editor.finish
  modify fun e => { e with editor }
  return draft

/-- Close the inline editor and save the draft if it was changed.  When that fails the editor
    stays open on the draft. -/
def commitDraft (service : Service σ) : Action σ (Option SaveOutcome) := do
  match ← finishEditing with
  | none => return none
  | some draft =>
    if !draft.isModified then return none
    match ← attempt (save service draft.coord (.text draft.text)) with
    | .ok outcome => return some outcome
    | .error error =>
      edit (·.openInline draft)
      fail error

/-- Commit a text for the cell being edited. -/
def commitEdit (service : Service σ) (text : String) : Action σ (Option SaveOutcome) := do
  updateDraft text
  commitDraft service

/-- Close the inline editor and drop the draft. -/
def cancelEdit : Action σ Unit := do
  let _ ← finishEditing

/-- Open the expanded editor on the draft. -/
def expandEditor : Action σ Unit := edit Editor.expand

/-- Return from the expanded editor to the inline one.  A text is saved right away, and is what
    the inline editor then starts from. -/
def finishExpanded (service : Service σ) (text? : Option String) : Action σ Unit := do
  edit Editor.collapse
  match text? with
  | none => return ()
  | some text =>
    let p ← orFail .nothingActive (← get).editor.editing?
    let _ ← save service p (.text text)
    modify fun e =>
      { e with editor := e.editor.modifyDraft fun d => { d with initial := text, text } }

/-- Load the stored content of a cell and open the inline editor on it. -/
def openEditor (service : Service σ) (p : Coord) : Action σ Unit := do
  match ← ask (service.load p) with
  | .ok content => edit (·.openInline (.opened p content.display))
  | .error cause => fail (.loadFailed p cause)

/-- Open the inline editor on the active cell, if there is one. -/
def openActive (service : Service σ) : Action σ Unit := do
  match (← get).active? with
  | some p => openEditor service p
  | none => return ()

/-! ### Clicks -/

/-- Click on a cell, the anchor moving along. -/
def clickAt (p : Coord) : Action σ Unit :=
  modify fun e => match e.cursor.click? e.grid p false with
    | some (_, cursor) => { e with cursor }
    | none => e

/-- A click on a cell. -/
def activate (service : Service σ) (p : Coord) : Action σ Unit := do
  if (← get).editor.phase = .expanded then return ()
  ensureFresh
  let e ← get
  let _ ← ofExcept .table (e.grid.cell p)
  let owner ← orFail .nothingActive (e.grid.owner? p)
  if e.editor.editing? = some owner then
    clickAt p
  else if e.editor.phase = .inline ∨ e.active? = some owner then
    let _ ← commitDraft service
    clickAt p
    openEditor service owner
  else
    clickAt p
    edit Editor.select

/-! ### Keys -/

/-- Move the active cell.  While a cell is edited inline, commit the draft first and open the
    editor again at the destination. -/
def travel (service : Service σ) (direction : Direction) (extend : Bool) : Action σ Unit := do
  let e ← get
  if e.active?.isNone then return ()
  if e.editor.phase ≠ .inline then
    let _ ← move direction extend
  else
    let _ ← commitDraft service
    ensureFresh
    let target ← step direction false
    openEditor service target

/-- Where the enter key goes while a cell is edited: down, or right from the last row. -/
def enterDirection : Action σ Direction := do
  match (← get).editor.editing? with
  | none => return .down
  | some p =>
    let grid ← freshGrid
    return if grid.height ≤ p.row + 1 then .right else .down

/-- A key. -/
def handleKey (service : Service σ) (key : Key) : Action σ Unit := do
  let phase := (← get).editor.phase
  if phase = .expanded then return ()
  let editing := phase = .inline
  match key with
  | .enter true => travel service .up false
  | .enter false =>
    if editing then travel service (← enterDirection) false else openActive service
  | .tab shift => travel service (if shift then .left else .right) false
  | .escape => cancelEdit
  | .f2 => if editing then expandEditor else openActive service
  | .arrow direction extend => travel service direction (extend && !editing)

end Engine

end TableGrid
