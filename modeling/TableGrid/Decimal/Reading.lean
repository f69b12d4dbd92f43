import TableGrid.Text.Integer

/-! # Reading decimals into binary numbers

A decimal is read with a significand of at most 64 bits, which is rounded once to a
`Float`, and is then scaled by powers of ten, each scaling rounding again.  The result
may therefore differ from the nearest `Float` in its last place.

* `absorb`   digits onto a significand, as many as fit into 64 bits
* `scale`    a `Float` times a power of ten, where that does not overflow
-/

namespace TableGrid.Decimal

/-- Append digits to a significand while it fits into 64 bits; the second part is the digits
    left over, starting with the first that did not fit. -/
def absorb (significand : Nat) : List Nat → Nat × List Nat
  | [] => (significand, [])
  | d :: ds =>
    if significand * 10 + d ≤ Text.maxWord then absorb (significand * 10 + d) ds
    else (significand, d :: ds)

/-- The `Float` nearest to a power of ten. -/
def powerOfTen (exponent : Nat) : Float := Float.ofScientific 1 false exponent

/-- Divide by `10 ^ exponent`, in steps of at most `10 ^ 308`, the largest power of ten that
    is a `Float`. -/
def divide (x : Float) (exponent : Nat) : Float :=
  if exponent ≤ 308 then x / powerOfTen exponent
  else if x == 0 then x
  else divide (x / powerOfTen 308) (exponent - 308)
termination_by exponent

/-- Scale by `10 ^ exponent`; `none` when the result would be no finite number. -/
def scale (x : Float) (exponent : Int) : Option Float :=
  if exponent < 0 then some (divide x exponent.natAbs)
  else if exponent ≤ 308 then
    let y := x * powerOfTen exponent.toNat
    if y.isInf then none else some y
  else if x == 0 then some x
  else none

end TableGrid.Decimal
