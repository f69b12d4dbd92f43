import TableGrid.Decimal.Shortest
import TableGrid.Text.Integer

/-! # Written forms of binary numbers

A `Format` fixes how the shortest decimal of a number is laid out: where plain notation
ends, whether whole numbers keep a final `.0`, and what stands for values that are no
numbers.  `Format.show` writes a `Float` in a given format.
-/

namespace TableGrid.Decimal

/-- How a number is laid out. -/
structure Format where
  tie : Tie
  /-- Whether a number whose leading digit counts `10 ^ power` is written plainly, without an
      exponent. -/
  plain : (power : Int) → Bool
  /-- Whether a whole number in plain notation ends in `.0`. -/
  keepsPoint : Bool
  notANumber : String
  infinity : String
  minusInfinity : String

/-- `count` zeros. -/
def zeros (count : Nat) : List Char := List.replicate count '0'

/-- Place the decimal point of `ds * 10 ^ exponent`, where `ds` are decimal digits. -/
def placePoint (keepsPoint : Bool) (ds : List Char) (exponent : Int) : List Char :=
  let point := (ds.length : Int) + exponent
  if 0 ≤ exponent then
    ds ++ zeros exponent.toNat ++ (if keepsPoint then ['.', '0'] else [])
  else if 0 < point then
    ds.take point.toNat ++ '.' :: ds.drop point.toNat
  else
    '0' :: '.' :: zeros (-point).toNat ++ ds

/-- Digits before a power of ten: `d.ddde+16`, the exponent always with its sign. -/
def withExponent (ds : List Char) (power : Int) : List Char :=
  let mantissa := match ds with
    | [] => []
    | [d] => [d]
    | d :: rest => d :: '.' :: rest
  let sign := if power < 0 then '-' else '+'
  mantissa ++ 'e' :: sign :: Text.digits power.natAbs

/-- Digits of a decimal without trailing zeros, and the exponent that goes with them. -/
def significant (d : Decimal) : List Char × Int :=
  let ds := Text.digits d.coefficient
  let kept := (ds.reverse.dropWhile (· == '0')).reverse
  if d.coefficient = 0 then (['0'], 0)
  else (kept, d.exponent + (ds.length - kept.length : Nat))

/-- The written form of a number. -/
def Format.show (format : Format) (x : Float) : String :=
  if x.isNaN then format.notANumber
  else if x.isInf then (if x < 0 then format.minusInfinity else format.infinity)
  else
    let (ds, exponent) := (shortest format.tie x).significant
    let power := (ds.length : Int) + exponent - 1
    let body :=
      if format.plain power then placePoint format.keepsPoint ds exponent
      else withExponent ds power
    let negative := Nat.pow 2 63 ≤ x.toBits.toNat
    String.ofList (if negative then '-' :: body else body)

end TableGrid.Decimal
