import TableGrid.Json.Basic

/-! # Reading the members of objects

An object with fixed fields refuses a field that is written twice.  All members that are no
fields of it may be repeated and go elsewhere.

* `field?`      a field's value, refused when it is written twice
* `optional`    a field that may be absent or `null`
* `withDefault` a field that may be absent only
* `without`     the members that are no fields
-/

namespace TableGrid.Json

/-- The value of a field, if it is written; `none` when it is written more than once. -/
def field? (members : List (String × Json)) (name : String) : Option (Option Json) :=
  match members.filter (·.1 == name) with
  | [] => some none
  | [(_, value)] => some (some value)
  | _ => none

/-- A field that may be absent or `null`. -/
def optional {α : Type} (members : List (String × Json)) (name : String)
    (decode : Json → Option α) : Option (Option α) := do
  match ← field? members name with
  | none => return none
  | some .null => return none
  | some value => return some (← decode value)

/-- A field that has a value of its own when it is absent. -/
def withDefault {α : Type} (members : List (String × Json)) (name : String) (default : α)
    (decode : Json → Option α) : Option α := do
  match ← field? members name with
  | none => return default
  | some value => decode value

/-- The members under other names than the given ones. -/
def without (members : List (String × Json)) (names : List String) : List (String × Json) :=
  members.filter fun member => !names.contains member.1

/-- The items of an array, each one decoded. -/
def listOf? {α : Type} (decode : Json → Option α) : Json → Option (List α)
  | .array items => items.mapM decode
  | _ => none

/-- A string. -/
def string? : Json → Option String
  | .string s => some s
  | _ => none

/-- A whole number of at most `limit`. -/
def nat? (limit : Nat) : Json → Option Nat
  | .number n => n.toNat? limit
  | _ => none

/-- The member for an optional value. -/
def optionalMember {α : Type} (name : String) (encode : α → Json) :
    Option α → List (String × Json)
  | none => []
  | some value => [(name, encode value)]

/-- The member for a list, left out when the list is empty. -/
def listMember {α : Type} (name : String) (encode : α → Json) (items : List α) :
    List (String × Json) :=
  if items.isEmpty then [] else [(name, .array (items.map encode))]

end TableGrid.Json
