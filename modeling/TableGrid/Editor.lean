import TableGrid.Coord.Address

/-! # Editing one cell

At any time at most one cell is edited, inline or in an expanded editor.  The text under way is
a `Draft`, and an `Editor` has one exactly while it is open.

```text
idle ──select──▶ selected ──open──▶ inline ──expand──▶ expanded
                    ▲                 │  ▲                │
                    └─────finish──────┘  └────collapse────┘
```
-/

namespace TableGrid

/-- A text under way for a cell. -/
structure Draft where
  coord : Coord
  /-- The text that the editor was opened with. -/
  initial : String
  /-- The text now. -/
  text : String
deriving DecidableEq, Repr

namespace Draft

/-- A draft as it is when the editor opens. -/
def opened (p : Coord) (text : String) : Draft := ⟨p, text, text⟩

/-- Whether the text has changed since. -/
def isModified (d : Draft) : Bool := d.text != d.initial

end Draft

/-- What an editor is doing. -/
inductive Phase where
  | idle
  | selected
  | inline
  | expanded
deriving DecidableEq, Repr

namespace Phase

/-- Whether an editor is open. -/
def isEditing : Phase → Bool
  | inline | expanded => true
  | idle | selected => false

/-- The phase in words. -/
def description : Phase → String
  | idle => "idle"
  | selected => "a cell is selected"
  | inline => "editing inline"
  | expanded => "the expanded editor is open"

end Phase

/-- Something that not every phase allows. -/
inductive EditAction where
  | select
  | move
  | edit
  | openInline
  | expand
  | collapse
  | finish
deriving DecidableEq, Repr

/-- The action in words. -/
def EditAction.description : EditAction → String
  | .select => "select a cell"
  | .move => "move the active cell"
  | .edit => "edit the draft"
  | .openInline => "open the inline editor"
  | .expand => "open the expanded editor"
  | .collapse => "close the expanded editor"
  | .finish => "finish editing"

/-- An action in a phase that does not allow it. -/
structure PhaseConflict where
  action : EditAction
  phase : Phase
deriving DecidableEq, Repr

/-- The wording of a conflict. -/
def PhaseConflict.message (c : PhaseConflict) : String :=
  "Cannot " ++ c.action.description ++ " while " ++ c.phase.description

/-- The editor of a table.  It has a draft exactly while it is open. -/
structure Editor where
  phase : Phase
  /-- The text under way. -/
  draft? : Option Draft
  aligned : draft?.isSome = phase.isEditing
deriving DecidableEq, Repr

namespace Editor

/-! ### Editors by phase -/

/-- No editor is open, and nothing is selected. -/
@[match_pattern]
def idle : Editor := ⟨.idle, none, by decide⟩

/-- No editor is open. -/
@[match_pattern]
def selected : Editor := ⟨.selected, none, by decide⟩

/-- The inline editor is open. -/
@[match_pattern]
def inline (d : Draft) : Editor := ⟨.inline, some d, by simp [Phase.isEditing]⟩

/-- The expanded editor is open. -/
@[match_pattern]
def expanded (d : Draft) : Editor := ⟨.expanded, some d, by simp [Phase.isEditing]⟩

/-- There are no other editors. -/
@[elab_as_elim, cases_eliminator]
theorem cases {motive : Editor → Prop} (idle : motive idle) (selected : motive selected)
    (inline : ∀ draft, motive (inline draft)) (expanded : ∀ draft, motive (expanded draft))
    (e : Editor) : motive e :=
  match e with
  | ⟨.idle, none, _⟩ => idle
  | ⟨.selected, none, _⟩ => selected
  | ⟨.inline, some draft, _⟩ => inline draft
  | ⟨.expanded, some draft, _⟩ => expanded draft

/-- The cell being edited. -/
def editing? (e : Editor) : Option Coord := e.draft?.map (·.coord)

/-- The conflict of an action with what the editor is doing. -/
def conflict (e : Editor) (action : EditAction) : PhaseConflict := ⟨action, e.phase⟩

/-! ### From one phase to another -/

/-- Go to another phase with the same draft, from a phase that is open if the other one is. -/
def turn (e : Editor) {before : Phase} (h : e.phase = before) (phase : Phase)
    (hopen : before.isEditing = phase.isEditing) : Editor where
  phase
  draft? := e.draft?
  aligned := by rw [e.aligned, h, hopen]

/-- A cell was selected while no editor is open. -/
def select (e : Editor) : Except PhaseConflict Editor :=
  match h : e.phase with
  | .idle | .selected => .ok (e.turn h .selected rfl)
  | .inline | .expanded => .error (e.conflict .select)

/-- Open the inline editor. -/
def openInline (e : Editor) (d : Draft) : Except PhaseConflict Editor :=
  match e.phase with
  | .idle | .selected => .ok (inline d)
  | .inline | .expanded => .error (e.conflict .openInline)

/-- Go from the inline editor to the expanded one. -/
def expand (e : Editor) : Except PhaseConflict Editor :=
  match h : e.phase with
  | .inline => .ok (e.turn h .expanded rfl)
  | .idle | .selected | .expanded => .error (e.conflict .expand)

/-- Go from the expanded editor back to the inline one. -/
def collapse (e : Editor) : Except PhaseConflict Editor :=
  match h : e.phase with
  | .expanded => .ok (e.turn h .inline rfl)
  | .idle | .selected | .inline => .error (e.conflict .collapse)

/-- Close the inline editor and hand out its draft; nothing happens without an editor. -/
def finish (e : Editor) : Except PhaseConflict (Option Draft × Editor) :=
  match e.phase with
  | .inline => .ok (e.draft?, selected)
  | .idle | .selected => .ok (none, e)
  | .expanded => .error (e.conflict .finish)

/-- Change the draft of an open editor. -/
def modifyDraft (f : Draft → Draft) (e : Editor) : Editor where
  phase := e.phase
  draft? := e.draft?.map f
  aligned := Option.isSome_map.trans e.aligned

end Editor

end TableGrid
