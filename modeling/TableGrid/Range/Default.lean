import TableGrid.Json.Parser
import TableGrid.Range.Rule
import TableGrid.Style.Attributes

/-! # Ranged defaults

Attributes that apply wherever a rule matches.  A ranged default is written as an object
with the fields `range` and `def`, other members being skipped, or as an array of the two.
-/

namespace TableGrid

/-- Attributes that apply wherever a rule matches. -/
structure RangedDefault where
  rule : Rule := .none
  attributes : Attributes := .empty
deriving DecidableEq

namespace RangedDefault

/-- Decode a ranged default. -/
def ofJson? : Json → Option RangedDefault
  | .object members => do
    let rule ← Json.withDefault members "range" .none fun j => some (Rule.ofJson j.canonical)
    let attributes ← Json.withDefault members "def" .empty Attributes.ofJson?
    return ⟨rule, attributes⟩
  | .array [] => some {}
  | .array [range] => some ⟨Rule.ofJson range.canonical, .empty⟩
  | .array [range, attributes] => do
    return ⟨Rule.ofJson range.canonical, ← Attributes.ofJson? attributes⟩
  | _ => none

/-- What is read of a ranged default: its fields. -/
def shape : Json.Shape := .record [("range", .whole), ("def", .whole)] false

/-- Read a ranged default from its text. -/
def parse? (text : String) : Option RangedDefault := (Json.parseAs? shape text).bind ofJson?

/-- The JSON form of a ranged default. -/
def toJson (d : RangedDefault) : Json :=
  .object [("range", d.rule.toJson), ("def", d.attributes.toJson)]

end RangedDefault

end TableGrid
