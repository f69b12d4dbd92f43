import TableGrid.Json.Printer

/-! # Contents of cells

A cell shows a truth value, a number, a text or nothing.  Numbers are binary numbers even
where they are written as whole ones.
-/

namespace TableGrid

/-- What a cell shows. -/
inductive Content where
  | bool (value : Bool)
  | number (value : Float)
  | text (value : String)
  | empty
deriving DecidableEq, Repr, Inhabited

namespace Content

/-- Whether a cell with this content shows nothing. -/
def isEmpty : Content → Bool
  | .empty => true
  | .text s => s.isEmpty
  | _ => false

/-- Whether two contents are the same value.  Numbers are compared as numbers, so the two
    zeros agree. -/
def agrees : Content → Content → Bool
  | .bool a, .bool b => a == b
  | .number a, .number b => a == b
  | .text a, .text b => a == b
  | .empty, .empty => true
  | _, _ => false

/-- Displayed numbers never have an exponent, and whole ones no point. -/
def numberFormat : Decimal.Format where
  tie := .up
  plain _ := true
  keepsPoint := false
  notANumber := "NaN"
  infinity := "inf"
  minusInfinity := "-inf"

/-- The text that a cell with this content shows. -/
def display : Content → String
  | .bool b => if b then "true" else "false"
  | .number x => numberFormat.show x
  | .text s => s
  | .empty => ""

/-- The content that a JSON value stands for: a value without parts. -/
def ofJson? : Json → Option Content
  | .bool b => some (.bool b)
  | .number n => some (.number n.toFloat)
  | .string s => some (.text s)
  | .null => some .empty
  | .array _ | .object _ => none

/-- The JSON form of a content. -/
def toJson : Content → Json
  | .bool b => .bool b
  | .number x => if x.isFinite then .number (.binary x) else .null
  | .text s => .string s
  | .empty => .null

end Content

end TableGrid
