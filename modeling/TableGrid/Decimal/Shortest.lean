/-! # Shortest decimals of binary numbers

A `Float` other than an infinity or NaN is an integer multiple of a power of two.
Among all decimals that are closer to it than to any other `Float` (a `Float` whose
significand is even also owns the two midpoints next to it) `shortest` picks one with
the fewest digits, and of these the nearest.  Where two are equally near, `Tie` decides.

The search runs in exact integer arithmetic.  All distances are measured in quarters of
the last binary place, so the interval of decimals that read back is
`4 m - below .. 4 m + 2` for a significand `m`; `below` is `1` where the next smaller
`Float` is only half as far away, and `2` elsewhere.
-/

namespace TableGrid

/-- The number `coefficient * 10 ^ exponent`. -/
structure Decimal where
  coefficient : Nat
  exponent : Int
deriving DecidableEq, Repr

namespace Decimal

/-- Which of two equally near decimals is taken. -/
inductive Tie where
  | up
  | even
deriving DecidableEq, Repr

/-- A positive binary number with the decimals that are read as that number: the value is
    `4 * significand * scale`, where `scale` is the fraction `scaleNum / scaleDen`. -/
structure Binary where
  significand : Nat
  scaleNum : Nat
  scaleDen : Nat
  /-- Distance to the lower midpoint, in quarters of the last place. -/
  below : Nat
deriving Repr

/-- Decode the magnitude of a finite `Float`. -/
def Binary.ofFloat (x : Float) : Binary :=
  let bits := x.toBits.toNat
  let fraction := bits % Nat.pow 2 52
  let field := bits / Nat.pow 2 52 % Nat.pow 2 11
  let significand := if field = 0 then fraction else Nat.pow 2 52 + fraction
  -- the value is `significand * 2 ^ (place - 1075)`
  let place := if field = 0 then 1 else field
  let below := if fraction = 0 ∧ 1 < field then 1 else 2
  if 1077 ≤ place then ⟨significand, Nat.pow 2 (place - 1077), 1, below⟩
  else ⟨significand, 1, Nat.pow 2 (1077 - place), below⟩

/-- Whether the decimal `n * 10 ^ exponent`, given as the fraction `num / den` of quarters
    of the last place, is read as the number. -/
def Binary.owns (b : Binary) (num den : Nat) : Bool :=
  let low := (4 * b.significand - b.below) * den
  let high := (4 * b.significand + 2) * den
  if b.significand % 2 = 0 then low ≤ num && num ≤ high else low < num && num < high

/-- The owned decimal with the given exponent that is nearest to the number, if one of the
    number's two neighbours among the multiples of `10 ^ exponent` is owned. -/
def Binary.nearest? (b : Binary) (tie : Tie) (exponent : Int) : Option Nat :=
  -- one step of the decimal grid is `stepNum / stepDen` quarters of the last place
  let stepNum := if 0 ≤ exponent then Nat.pow 10 exponent.toNat * b.scaleDen else b.scaleDen
  let stepDen := if 0 ≤ exponent then b.scaleNum else Nat.pow 10 (-exponent).toNat * b.scaleNum
  let value := 4 * b.significand * stepDen
  let n := value / stepNum
  let lower := b.owns (n * stepNum) stepDen
  let upper := b.owns ((n + 1) * stepNum) stepDen
  let gap := 2 * (value % stepNum)
  match lower, upper with
  | false, false => none
  | true, false => some n
  | false, true => some (n + 1)
  | true, true =>
    if gap < stepNum then some n
    else if stepNum < gap then some (n + 1)
    else match tie with
      | .up => some (n + 1)
      | .even => if n % 2 = 0 then some n else some (n + 1)

/-- The power of ten of the leading digit of the positive fraction `num / den`. -/
def leadingPower (num den : Nat) : Int :=
  let guess : Int := (Nat.toDigits 10 num).length - (Nat.toDigits 10 den).length
  let reached :=
    if 0 ≤ guess then Nat.pow 10 guess.toNat * den ≤ num
    else den ≤ Nat.pow 10 (-guess).toNat * num
  if reached then guess else guess - 1

/-- Try grids of `10 ^ exponent`, `10 ^ (exponent - 1)`, … until one owns a decimal. -/
def Binary.search (b : Binary) (tie : Tie) (exponent : Int) : Nat → Decimal
  | 0 => ⟨4 * b.significand * b.scaleNum / b.scaleDen, 0⟩
  | tries + 1 =>
    match b.nearest? tie exponent with
    | some n => ⟨n, exponent⟩
    | none => b.search tie (exponent - 1) tries

/-- The shortest decimal that reads back as the magnitude of a finite `Float`: seventeen
    digits always suffice. -/
def shortest (tie : Tie) (x : Float) : Decimal :=
  let b := Binary.ofFloat x
  if b.significand = 0 then ⟨0, 0⟩
  else
    let top := leadingPower (4 * b.significand * b.scaleNum) b.scaleDen
    b.search tie top 18

end Decimal
end TableGrid
