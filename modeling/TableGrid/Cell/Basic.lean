import TableGrid.Cell.Patch

/-! # Cells

A cell of a resolved grid: its content, spans, identifier and attributes, and after spans
have been resolved either its place among the rendered cells or the cell that covers it.
-/

namespace TableGrid

/-- The place of a rendered cell: `x` counts the rendered cells before it in its row, `y` is
    the row. -/
structure RenderPlace where
  x : Nat
  y : Nat
deriving DecidableEq, Repr

/-- A cell of a resolved grid. -/
structure Cell where
  content : Content := .empty
  colspan : Option UInt32 := none
  rowspan : Option UInt32 := none
  id : Option String := none
  attributes : Attributes := .empty
  /-- Where the cell is rendered, if it is not covered. -/
  render : Option RenderPlace := none
  /-- The cell whose span covers this one. -/
  subsumedBy : Option Coord := none
deriving DecidableEq

instance : Inhabited Cell := ⟨{}⟩

namespace Cell

/-- The empty cell. -/
def blank : Cell := {}

/-- The number of columns that a cell covers, at least one. -/
def width (c : Cell) : Nat := match c.colspan with
  | some n => max n.toNat 1
  | none => 1

/-- The number of rows that a cell covers, at least one. -/
def height (c : Cell) : Nat := match c.rowspan with
  | some n => max n.toNat 1
  | none => 1

/-- Whether a cell covers more than itself. -/
def isSpanning (c : Cell) : Bool := 1 < c.width || 1 < c.height

/-- Whether no other cell covers this one. -/
def isOwner (c : Cell) : Bool := c.subsumedBy.isNone

/-- Write a patch onto a cell. -/
def apply (c : Cell) (p : Patch) : Cell :=
  { c with
    content := p.content.getD c.content
    colspan := p.colspan.or c.colspan
    rowspan := p.rowspan.or c.rowspan
    id := p.id.or c.id
    attributes := c.attributes.merge p.attributes }

/-- Forget what resolving spans has found. -/
def clearMarks (c : Cell) : Cell := { c with render := none, subsumedBy := none }

/-- The JSON form of a cell. -/
def toJson (c : Cell) : Json :=
  .object <| [("content", c.content.toJson)] ++
    Json.optionalMember "colspan" spanToJson c.colspan ++
    Json.optionalMember "rowspan" spanToJson c.rowspan ++
    Json.optionalMember "id" .string c.id ++
    (if c.attributes.isEmpty then [] else [("style", c.attributes.toJson)]) ++
    Json.optionalMember "render"
      (fun place => .object
        [("x", .number (.whole place.x)), ("y", .number (.whole place.y))]) c.render ++
    Json.optionalMember "subsumedBy" (fun owner => .string owner.address) c.subsumedBy

end Cell

end TableGrid
