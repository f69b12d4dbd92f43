import TableGrid.Json.Members
import TableGrid.Json.Printer
import TableGrid.Error

/-! # Range rules

A rule names the rows, columns or cells that a default applies to.  It lists up to four
bounds: first row, first column, last row, last column; a rule for rows or columns alone
uses the first two.  A negative bound counts from the end.  A missing start is zero and a
missing end equals its start.  Bounds are words of 64 bits, and so is the arithmetic that
resolves them; `Rule.index` keeps every bound inside the table.

A rule may be written as a number, as an array or as a text.  Whatever cannot be
understood is `malformed` and matches nothing.
-/

namespace TableGrid

/-- A range rule. -/
inductive Rule where
  | bounds (values : List Int64)
  /-- A rule that could not be understood, with its JSON text. -/
  | malformed (raw : String)
deriving DecidableEq, Inhabited

/-- A rectangle of cells, both corners included. -/
structure Rectangle where
  top : Nat
  left : Nat
  bottom : Nat
  right : Nat
deriving DecidableEq, Repr

/-- Whether a cell lies in the rectangle. -/
def Rectangle.contains (r : Rectangle) (row col : Nat) : Bool :=
  r.top ≤ row && row ≤ r.bottom && r.left ≤ col && col ≤ r.right

namespace Rule

/-- The rule without any bounds, which matches nothing. -/
def none : Rule := .bounds []

/-! ### Resolving -/

/-- Addition of 64-bit words that stays at the nearest bound instead of overflowing. -/
def saturatingAdd (a b : Int64) : Int64 :=
  let sum := a.toInt + b.toInt
  if sum < Int64.minValue.toInt then Int64.minValue
  else if Int64.maxValue.toInt < sum then Int64.maxValue
  else Int64.ofInt sum

/-- The index that a bound means among `size` rows or columns: a negative bound counts from
    the end, and the result is moved to the nearest index inside. -/
def index (size : Nat) (bound : Int64) : Nat :=
  let count := Int64.ofNat size
  let position := if bound < 0 then saturatingAdd count bound else bound
  let clamped :=
    if position < 0 then 0
    else if count - 1 < position then count - 1
    else position
  clamped.toInt.toNat

/-- The bound with the given number, resolved, or `default` when it is missing. -/
def indexAt (values : List Int64) (i size default : Nat) : Nat :=
  match values[i]? with
  | some bound => index size bound
  | Option.none => default

/-- The rectangle of a rule in a table of the given size. -/
def rectangle? (rule : Rule) (rows cols : Nat) : Option Rectangle :=
  match rule with
  | .malformed _ => Option.none
  | .bounds [] => Option.none
  | .bounds values =>
    if rows = 0 ∨ cols = 0 then Option.none
    else
      let top := indexAt values 0 rows 0
      let left := indexAt values 1 cols 0
      some ⟨top, left, indexAt values 2 rows top, indexAt values 3 cols left⟩

/-- The first and last index of a rule for `size` rows or columns. -/
def interval? (rule : Rule) (size : Nat) : Option (Nat × Nat) :=
  match rule with
  | .malformed _ => Option.none
  | .bounds [] => Option.none
  | .bounds values =>
    if size = 0 then Option.none
    else
      let first := indexAt values 0 size 0
      some (first, indexAt values 1 size first)

/-- Whether the rule covers a cell. -/
def matchesCell (rule : Rule) (rows cols row col : Nat) : Bool :=
  match rule.rectangle? rows cols with
  | some r => r.contains row col
  | Option.none => false

/-- Whether the rule covers a row or column. -/
def matchesIndex (rule : Rule) (size i : Nat) : Bool :=
  match rule.interval? size with
  | some (first, last) => first ≤ i && i ≤ last
  | Option.none => false

/-! ### Reading and writing -/

/-- Read a rule from a text such as `2`, `1,-1` or `[0, 0, -1, 1]`: one bracket of each kind
    is dropped, and numbers are separated by commas. -/
def parse? (text : String) : Option Rule :=
  let inner := (text.toList.erase '[').erase ']'
  if (Text.trim inner).isEmpty then some none
  else
    ((inner.splitOn ',').mapM fun part => (Text.readSigned (Text.trim part)).toOption).map .bounds

/-- Read a rule from a text, or say that it is none. -/
def parse (text : String) : Except TableError Rule :=
  match parse? text with
  | some rule => .ok rule
  | Option.none => .error (.unmatchedRange text)

/-- The rule that a JSON value stands for. -/
def ofJson (value : Json) : Rule :=
  let understood := match value with
    | .null => some none
    | .number n => n.toInt64?.map fun i => .bounds [i]
    | .string s => parse? s
    | .array items => (items.mapM Json.toInt64?).map .bounds
    | _ => Option.none
  understood.getD (.malformed value.compact)

/-- The JSON form of a rule. -/
def toJson : Rule → Json
  | .bounds values => .array (values.map fun i => .number (.whole i.toInt))
  | .malformed raw => .string raw

end Rule

end TableGrid
