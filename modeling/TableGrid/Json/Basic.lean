import Std.Data.ExtTreeMap
import TableGrid.Decimal.Format

/-! # JSON values

`Json` is the tree of a JSON text.  An object keeps its members in the order in which
they are written, a name possibly more than once, because some readers refuse a repeated
name while others let the last one win.  `Json.canonical` is the form in which values are
stored: names sorted, each one once, with the last value written under it.

Numbers without fraction and exponent are whole; all others are binary numbers.
-/

namespace TableGrid

/-- A JSON number. -/
inductive Json.Number where
  | whole (value : Int)
  | binary (value : Float)
deriving DecidableEq, Repr

/-- A JSON value. -/
inductive Json where
  | null
  | bool (value : Bool)
  | number (value : Json.Number)
  | string (value : String)
  | array (items : List Json)
  | object (members : List (String × Json))
deriving Inhabited

namespace Json

/-! ### Numbers -/

/-- The binary number nearest to a JSON number. -/
def Number.toFloat : Number → Float
  | .whole n => Float.ofInt n
  | .binary x => x

/-- The number as an unsigned one of at most `limit`. -/
def Number.toNat? (limit : Nat) : Number → Option Nat
  | .whole n => if 0 ≤ n ∧ n ≤ limit then some n.toNat else none
  | .binary _ => none

/-- The number as a signed one of 64 bits. -/
def Number.toInt64? : Number → Option Int64
  | .whole n =>
    if Int64.minValue.toInt ≤ n ∧ n ≤ Int64.maxValue.toInt then some (Int64.ofInt n) else none
  | .binary _ => none

/-- JSON numbers are written plainly from `10 ^ -5` up to `10 ^ 16`, and binary ones always
    show a point or an exponent.  A value that is no number becomes `null`. -/
def numberFormat : Decimal.Format where
  tie := .even
  plain power := -5 ≤ power && power < 16
  keepsPoint := true
  notANumber := "null"
  infinity := "null"
  minusInfinity := "null"

/-- The text of a number. -/
def Number.text : Number → String
  | .whole n => Text.showInt n
  | .binary x => numberFormat.show x

/-! ### Access -/

/-- Whether a value is `null`. -/
def isNull : Json → Bool
  | .null => true
  | _ => false

/-- The value as a signed number of 64 bits. -/
def toInt64? : Json → Option Int64
  | .number n => n.toInt64?
  | _ => none

/-! ### Canonical values -/

/-- Sort members by name and keep the last value of each name. -/
def sortMembers (members : List (String × Json)) : List (String × Json) :=
  (Std.ExtTreeMap.ofList members : Std.ExtTreeMap String Json).toList

mutual

/-- The stored form of a value: in every object the names are sorted, and of a repeated name
    only the last value is kept. -/
def canonical : Json → Json
  | .array items => .array (canonicalItems items)
  | .object members => .object (sortMembers (canonicalMembers members))
  | j => j

/-- `canonical` on every item. -/
def canonicalItems : List Json → List Json
  | [] => []
  | j :: js => canonical j :: canonicalItems js

/-- `canonical` on every member's value. -/
def canonicalMembers : List (String × Json) → List (String × Json)
  | [] => []
  | (name, j) :: members => (name, canonical j) :: canonicalMembers members

end

/-! ### Equality -/

mutual

/-- Equality of values is decidable. -/
def decEq : (a b : Json) → Decidable (a = b)
  | .null, .null => isTrue rfl
  | .bool a, .bool b => decidable_of_iff (a = b) (by simp)
  | .number a, .number b => decidable_of_iff (a = b) (by simp)
  | .string a, .string b => decidable_of_iff (a = b) (by simp)
  | .array a, .array b =>
    match decEqItems a b with
    | isTrue h => isTrue (by rw [h])
    | isFalse h => isFalse (by simpa using h)
  | .object a, .object b =>
    match decEqMembers a b with
    | isTrue h => isTrue (by rw [h])
    | isFalse h => isFalse (by simpa using h)
  | .null, .bool _ | .null, .number _ | .null, .string _ | .null, .array _
  | .null, .object _ | .bool _, .null | .bool _, .number _ | .bool _, .string _
  | .bool _, .array _ | .bool _, .object _ | .number _, .null | .number _, .bool _
  | .number _, .string _ | .number _, .array _ | .number _, .object _
  | .string _, .null | .string _, .bool _ | .string _, .number _
  | .string _, .array _ | .string _, .object _ | .array _, .null
  | .array _, .bool _ | .array _, .number _ | .array _, .string _
  | .array _, .object _ | .object _, .null | .object _, .bool _
  | .object _, .number _ | .object _, .string _ | .object _, .array _ =>
    isFalse (by simp)

/-- Equality of lists of values is decidable. -/
def decEqItems : (a b : List Json) → Decidable (a = b)
  | [], [] => isTrue rfl
  | a :: as, b :: bs =>
    match decEq a b, decEqItems as bs with
    | isTrue h, isTrue hs => isTrue (by rw [h, hs])
    | isFalse h, _ => isFalse (by simp [h])
    | _, isFalse hs => isFalse (by simp [hs])
  | [], _ :: _ | _ :: _, [] => isFalse (by simp)

/-- Equality of lists of members is decidable. -/
def decEqMembers : (a b : List (String × Json)) → Decidable (a = b)
  | [], [] => isTrue rfl
  | (m, a) :: as, (n, b) :: bs =>
    if hn : m = n then
      match decEq a b, decEqMembers as bs with
      | isTrue h, isTrue hs => isTrue (by rw [hn, h, hs])
      | isFalse h, _ => isFalse (by simp [h])
      | _, isFalse hs => isFalse (by simp [hs])
    else isFalse (by simp [hn])
  | [], _ :: _ | _ :: _, [] => isFalse (by simp)

end

instance : DecidableEq Json := decEq

end Json

end TableGrid
