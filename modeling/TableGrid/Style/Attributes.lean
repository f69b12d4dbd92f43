import TableGrid.Json.Members
import TableGrid.Json.Printer
import TableGrid.Style.Property

/-! # Attribute sets and resolved styles

A table, a row, a column or a cell carries a set of `Attributes`: recognised properties with
their texts, and further attributes kept as JSON values, so that they survive reading and
writing.  Only recognised properties ever reach a resolved `Style`.

In JSON an attribute set is an object.  Properties may be written as strings, numbers or
truth values and are kept as text; `null` stands for an absent attribute.
-/

namespace TableGrid

/-- A resolved style: the effective text of each property. -/
structure Style where
  values : Std.ExtTreeMap Property String
deriving DecidableEq

namespace Style

/-- The style without any property. -/
def empty : Style := ⟨∅⟩

/-- The text of a property. -/
def get? (s : Style) (key : Property) : Option String := s.values[key]?

/-- Set a property. -/
def insert (s : Style) (key : Property) (text : String) : Style := ⟨s.values.insert key text⟩

/-- One style on top of another: the upper one wins wherever it has a property. -/
def override (lower upper : Style) : Style := ⟨lower.values ∪ upper.values⟩

/-- Lay styles on top of each other, the last one uppermost. -/
def cascade (stages : List Style) : Style := stages.foldl override empty

/-- The properties in order. -/
def toList (s : Style) : List (Property × String) := s.values.toList

/-- A list of CSS declarations. -/
def css (s : Style) : String :=
  "; ".intercalate (s.toList.map fun (key, text) => key.cssName ++ ": " ++ text)

/-- The JSON form of a style, under the CSS names. -/
def toJson (s : Style) : Json :=
  .object (s.toList.map fun (key, text) => (key.cssName, .string text))

end Style

/-- A set of attributes. -/
structure Attributes where
  /-- The recognised properties. -/
  values : Std.ExtTreeMap Property String := ∅
  /-- All other attributes. -/
  extra : Std.ExtTreeMap String Json := ∅
deriving DecidableEq

namespace Attributes

/-- The set without any attribute. -/
def empty : Attributes := {}

/-- The text of a recognised property. -/
def get? (a : Attributes) (key : Property) : Option String := a.values[key]?

/-- Set a recognised property. -/
def set (a : Attributes) (key : Property) (text : String) : Attributes :=
  { a with values := a.values.insert key text }

/-- Remove a recognised property. -/
def remove (a : Attributes) (key : Property) : Attributes :=
  { a with values := a.values.erase key }

/-- Set the attribute of a name. -/
def setNamed (a : Attributes) (name text : String) : Attributes :=
  match Property.ofName? name with
  | some key => a.set key text
  | none => { a with extra := a.extra.insert name (.string text) }

/-- Whether `removeNamed` has something to remove: under a recognised name only a property
    counts. -/
def hasNamed (a : Attributes) (name : String) : Bool :=
  match Property.ofName? name with
  | some key => a.values.contains key
  | none => a.extra.contains name

/-- Remove the attribute of a name. -/
def removeNamed (a : Attributes) (name : String) : Attributes :=
  match Property.ofName? name with
  | some key => a.remove key
  | none => { a with extra := a.extra.erase name }

/-- Whether there are no attributes at all. -/
def isEmpty (a : Attributes) : Bool := a.values.isEmpty && a.extra.isEmpty

/-- Both sets together; where both have an attribute, `upper` wins. -/
def merge (lower upper : Attributes) : Attributes :=
  ⟨lower.values ∪ upper.values, lower.extra ∪ upper.extra⟩

/-- The properties that a level admits, as a style. -/
def styleAt (a : Attributes) (level : Level) : Style :=
  ⟨a.values.filter fun key _ => level.allows key⟩

/-! ### JSON -/

/-- The text of a property written as a JSON value without parts. -/
def textOfJson? : Json → Option String
  | .string s => some s
  | .number n => some n.text
  | .bool b => some (if b then "true" else "false")
  | _ => none

/-- Take up one member: a recognised name with a value that has a text is a property, any
    other value but `null` is kept as it is. -/
def addMember (a : Attributes) (name : String) (value : Json) : Attributes :=
  if value.isNull then a
  else
    match Property.ofName? name, textOfJson? value with
    | some key, some text => a.set key text
    | _, _ => { a with extra := a.extra.insert name value }

/-- The set that the members of an object stand for; of a repeated name only the last value
    counts. -/
def ofMembers (members : List (String × Json)) : Attributes :=
  (Json.sortMembers (Json.canonicalMembers members)).foldl
    (fun a member => a.addMember member.1 member.2) empty

/-- An attribute set is an object. -/
def ofJson? : Json → Option Attributes
  | .object members => some (ofMembers members)
  | _ => none

/-- The members of a set: properties in their order, then the others sorted by name. -/
def toMembers (a : Attributes) : List (String × Json) :=
  a.values.toList.map (fun (key, text) => (key.name, .string text)) ++ a.extra.toList

/-- The JSON form of a set. -/
def toJson (a : Attributes) : Json := .object a.toMembers

end Attributes

end TableGrid
