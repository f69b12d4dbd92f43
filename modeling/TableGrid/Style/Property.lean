import Std.Data.ExtTreeMap
import TableGrid.Error

/-! # Style properties and the levels they apply to

A table recognises eighteen style properties.  Tables write them in camel case, resolved
styles under their CSS names.  A style is resolved for a `Level` - the table, a row, a
column, a column on behalf of its cells, or a cell - and each level admits some properties
only.
-/

namespace TableGrid

/-- A recognised style property. -/
inductive Property where
  | backgroundColor
  | border
  | borderTop
  | borderBottom
  | borderLeft
  | borderRight
  | color
  | fontFamily
  | fontSize
  | fontWeight
  | height
  | horizontalAlign
  | maxWidth
  | minWidth
  | textAlign
  | verticalAlign
  | visibility
  | width
deriving DecidableEq, Repr, Inhabited

namespace Property

/-- All properties in order. -/
def all : List Property :=
  [backgroundColor, border, borderTop, borderBottom, borderLeft, borderRight, color,
    fontFamily, fontSize, fontWeight, height, horizontalAlign, maxWidth, minWidth,
    textAlign, verticalAlign, visibility, width]

/-- The name of a property in a table. -/
def name : Property → String
  | backgroundColor => "backgroundColor"
  | border => "border"
  | borderTop => "borderTop"
  | borderBottom => "borderBottom"
  | borderLeft => "borderLeft"
  | borderRight => "borderRight"
  | color => "color"
  | fontFamily => "fontFamily"
  | fontSize => "fontSize"
  | fontWeight => "fontWeight"
  | height => "height"
  | horizontalAlign => "horizontalAlign"
  | maxWidth => "maxWidth"
  | minWidth => "minWidth"
  | textAlign => "textAlign"
  | verticalAlign => "verticalAlign"
  | visibility => "visibility"
  | width => "width"

/-- The CSS name of a property. -/
def cssName : Property → String
  | backgroundColor => "background-color"
  | border => "border"
  | borderTop => "border-top"
  | borderBottom => "border-bottom"
  | borderLeft => "border-left"
  | borderRight => "border-right"
  | color => "color"
  | fontFamily => "font-family"
  | fontSize => "font-size"
  | fontWeight => "font-weight"
  | height => "height"
  | horizontalAlign => "horizontal-align"
  | maxWidth => "max-width"
  | minWidth => "min-width"
  | textAlign => "text-align"
  | verticalAlign => "vertical-align"
  | visibility => "visibility"
  | width => "width"

/-- The property of a name, if the name is recognised. -/
def ofName? (name : String) : Option Property := all.find? (·.name == name)

/-- The property of a name, or the error for a name that is not recognised. -/
def ofName (name : String) : Except TableError Property :=
  match ofName? name with
  | some key => .ok key
  | none => .error (.unknownProperty name)

/-- Properties are ordered as they are listed. -/
instance : Ord Property := ⟨fun a b => compare a.ctorIdx b.ctorIdx⟩

theorem compare_def (a b : Property) : compare a b = compare a.ctorIdx b.ctorIdx := rfl

theorem eq_of_ctorIdx_eq {a b : Property} (h : a.ctorIdx = b.ctorIdx) : a = b := by
  cases a <;> cases b <;> first | rfl | exact absurd h (by decide)

instance : Std.TransOrd Property where
  eq_swap {a b} := by rw [compare_def, compare_def, ← Std.OrientedCmp.eq_swap]
  isLE_trans {a b c} := by
    simp only [compare_def, Nat.isLE_compare]
    exact Nat.le_trans

instance : Std.LawfulEqOrd Property where
  eq_of_compare {a b} h := by
    rw [compare_def, Nat.compare_eq_eq] at h
    exact eq_of_ctorIdx_eq h

theorem ofName?_name (p : Property) : ofName? p.name = some p := by cases p <;> decide

end Property

/-- What a style is resolved for. -/
inductive Level where
  | table
  | row
  | column
  /-- A column, for what its cells take over from it. -/
  | columnCell
  | cell
deriving DecidableEq, Repr

/-- Whether a property may be applied at a level. -/
def Level.allows : Level → Property → Bool
  | .table, .backgroundColor | .table, .border | .table, .borderTop | .table, .borderBottom
  | .table, .borderLeft | .table, .borderRight | .table, .verticalAlign | .table, .textAlign
  | .table, .color | .table, .fontFamily | .table, .fontSize | .table, .visibility
  | .table, .width => true
  | .row, .backgroundColor | .row, .border | .row, .borderTop | .row, .borderBottom
  | .row, .borderLeft | .row, .borderRight | .row, .verticalAlign | .row, .textAlign
  | .row, .color | .row, .fontFamily | .row, .fontSize | .row, .fontWeight
  | .row, .height => true
  | .column, .width | .column, .backgroundColor | .column, .border | .column, .borderTop
  | .column, .borderBottom | .column, .borderLeft | .column, .borderRight => true
  | .columnCell, .fontSize | .columnCell, .verticalAlign | .columnCell, .textAlign
  | .columnCell, .fontFamily | .columnCell, .color | .columnCell, .fontWeight => true
  | .cell, .verticalAlign | .cell, .fontSize | .cell, .border | .cell, .borderTop
  | .cell, .borderBottom | .cell, .borderLeft | .cell, .borderRight | .cell, .backgroundColor
  | .cell, .textAlign | .cell, .fontFamily | .cell, .color | .cell, .fontWeight
  | .cell, .width | .cell, .height => true
  | _, _ => false

end TableGrid
