import TableGrid.Engine.Basic

/-! # Attributes of the selection

The attributes of all selected cells are changed in the local overlay, and the grid is built
again.
-/

namespace TableGrid.Engine

variable {σ : Type}

/-- Change the overlay at every selected cell and rebuild. -/
def onSelection (change : Overlay → Coord → Overlay) : Action σ Unit := do
  ensureFresh
  let e ← get
  let selection ← orFail .nothingActive e.cursor.selection
  set (rebuilt { e with overlay := selection.cells.foldl change e.overlay })

/-- Set an attribute of every selected cell. -/
def setAttribute (name text : String) : Action σ Unit :=
  onSelection fun o p => o.setAttribute p name text

/-- Remove an attribute of every selected cell. -/
def clearAttribute (name : String) : Action σ Unit :=
  onSelection fun o p => o.clearAttribute p name

/-- Remove all attributes of every selected cell; contents stay. -/
def clearAttributes : Action σ Unit :=
  onSelection fun o p => o.clearAttributes p

end TableGrid.Engine
