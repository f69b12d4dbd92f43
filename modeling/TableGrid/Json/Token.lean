import TableGrid.Json.Basic
import TableGrid.Decimal.Reading

/-! # Tokens of JSON

The parts of a JSON text that have no parts themselves: blanks, words, numbers and strings, by
the grammar of RFC 8259.

* `scanNumeral`, `Numeral.value?`   a written number, and the number that it stands for
* `readString`                      a string
* `skipString`                      a string whose escapes need not stand for characters

A written number may be too large for a binary number, and the escapes of a string may name
half of a surrogate pair.  Both are well-formed text without a value.

Each function takes the characters still to come, and what it returns ends with the characters
after the token.
-/

namespace TableGrid.Json

/-! ### Blanks and words -/

/-- The blanks of JSON. -/
def isSpace (c : Char) : Bool := c = ' ' || c = '\n' || c = '\t' || c = '\r'

/-- Skip blanks. -/
def skipSpace (s : List Char) : List Char := s.dropWhile isSpace

/-- Drop a word from the front of a text. -/
def dropWord? (word : List Char) (s : List Char) : Option (List Char) :=
  if word.isPrefixOf s then some (s.drop word.length) else none

/-! ### Numbers -/

/-- The parts of a written number, digits as their values. -/
structure Numeral where
  negative : Bool
  whole : List Nat
  fraction : List Nat
  /-- Whether a point was written. -/
  hasPoint : Bool
  /-- The sign and the digits of the exponent. -/
  exponent : Option (Bool × List Char)

/-- The digits in front of a text, and the text after them. -/
def spanDigits (s : List Char) : List Char × List Char := s.span Char.isDigit

/-- The values of decimal digits. -/
def digitValues (s : List Char) : List Nat := s.filterMap Text.digit?

/-- The digits of an exponent, at least one. -/
def scanExponentDigits (negative : Bool) (s : List Char) :
    Option ((Bool × List Char) × List Char) :=
  let (ds, rest) := spanDigits s
  if ds.isEmpty then none else some ((negative, ds), rest)

/-- The exponent after an `e`: an optional sign and at least one digit. -/
def scanExponent (s : List Char) : Option ((Bool × List Char) × List Char) :=
  match s with
  | '+' :: t => scanExponentDigits false t
  | '-' :: t => scanExponentDigits true t
  | t => scanExponentDigits false t

/-- Whether a point comes, and the digits after it, at least one. -/
def scanFraction (s : List Char) : Option (Bool × List Char × List Char) :=
  match s with
  | '.' :: t =>
    let (ds, rest) := spanDigits t
    if ds.isEmpty then none else some (true, ds, rest)
  | t => some (false, [], t)

/-- The power of ten, if one comes. -/
def scanPower (s : List Char) : Option (Option (Bool × List Char) × List Char) :=
  match s with
  | 'e' :: t => (scanExponent t).map fun (e, rest) => (some e, rest)
  | 'E' :: t => (scanExponent t).map fun (e, rest) => (some e, rest)
  | t => some (none, t)

/-- Scan a number after its sign: no leading zero, and a digit on both sides of a point. -/
def scanUnsigned (negative : Bool) (s : List Char) : Option (Numeral × List Char) := do
  let (whole, s) := spanDigits s
  guard (!whole.isEmpty && (whole.length == 1 || whole.head? != some '0'))
  let (hasPoint, fraction, s) ← scanFraction s
  let (exponent, s) ← scanPower s
  return (⟨negative, digitValues whole, digitValues fraction, hasPoint, exponent⟩, s)

/-- Scan a number. -/
def scanNumeral (s : List Char) : Option (Numeral × List Char) :=
  match s with
  | '-' :: t => scanUnsigned true t
  | t => scanUnsigned false t

/-- The binary number with a significand of 64 bits and a power of ten. -/
def scaled (negative : Bool) (significand : Nat) (exponent : Int) : Option Float := do
  let x ← Decimal.scale (Float.ofNat significand) exponent
  return if negative then -x else x

/-- The value of a written number.  The significand takes as many digits as fit into 64 bits;
    further digits before the point count as powers of ten, those after it are dropped.  An
    exponent that does not fit into 31 bits makes the number zero or too large. -/
def Numeral.value? (n : Numeral) : Option Number :=
  let (head, left) := Decimal.absorb 0 n.whole
  if left.isEmpty && !n.hasPoint && n.exponent.isNone then
    if !n.negative then some (.whole head)
    else if 0 < head ∧ head ≤ Nat.pow 2 63 then some (.whole (-head))
    else some (.binary (-(Float.ofNat head)))
  else
    let (significand, rest) := Decimal.absorb head n.fraction
    let shift : Int := left.length - (n.fraction.length - rest.length : Nat)
    let value := match n.exponent with
      | none => scaled n.negative significand shift
      | some (negative, ds) =>
        match Text.readDigits (Nat.pow 2 31 - 1) 0 ds with
        | .ok e => scaled n.negative significand (if negative then shift - e else shift + e)
        | .error _ =>
          if significand ≠ 0 ∧ !negative then none
          else some (if n.negative then -0.0 else 0.0)
    value.map .binary

/-! ### Strings -/

/-- The value of a hexadecimal digit. -/
def hexValue? (c : Char) : Option Nat :=
  if '0' ≤ c ∧ c ≤ '9' then some (c.toNat - '0'.toNat)
  else if 'a' ≤ c ∧ c ≤ 'f' then some (c.toNat - 'a'.toNat + 10)
  else if 'A' ≤ c ∧ c ≤ 'F' then some (c.toNat - 'A'.toNat + 10)
  else none

/-- The code unit of four hexadecimal digits. -/
def codeUnit? (a b c d : Char) : Option Nat := do
  return (← hexValue? a) * 4096 + (← hexValue? b) * 256 + (← hexValue? c) * 16 + (← hexValue? d)

/-- The character of an escape other than `\u`. -/
def unescape? : Char → Option Char
  | '"' => some '"'
  | '\\' => some '\\'
  | '/' => some '/'
  | 'b' => some '\x08'
  | 'f' => some '\x0c'
  | 'n' => some '\n'
  | 'r' => some '\r'
  | 't' => some '\t'
  | _ => none

/-- The rest of a string after its opening quote.  Control characters must be escaped, and
    the two halves of a surrogate pair must follow each other. -/
def readString : List Char → Option (List Char × List Char)
  | [] => none
  | '"' :: rest => some ([], rest)
  | '\\' :: 'u' :: a :: b :: c :: d :: rest => do
    let unit ← codeUnit? a b c d
    if 0xDC00 ≤ unit ∧ unit ≤ 0xDFFF then none
    else if 0xD800 ≤ unit ∧ unit ≤ 0xDBFF then
      match rest with
      | '\\' :: 'u' :: a :: b :: c :: d :: rest => do
        let low ← codeUnit? a b c d
        guard (0xDC00 ≤ low ∧ low ≤ 0xDFFF)
        let (text, rest) ← readString rest
        return (Char.ofNat (0x10000 + (unit - 0xD800) * 1024 + (low - 0xDC00)) :: text, rest)
      | _ => none
    else
      let (text, rest) ← readString rest
      return (Char.ofNat unit :: text, rest)
  | '\\' :: e :: rest => do
    let c ← unescape? e
    let (text, rest) ← readString rest
    return (c :: text, rest)
  | c :: rest => do
    guard (0x20 ≤ c.toNat ∧ c ≠ '\\')
    let (text, rest) ← readString rest
    return (c :: text, rest)

/-- Skip the rest of a string after its opening quote.  Escapes have to be written correctly, but
    need not stand for characters. -/
def skipString : List Char → Option (List Char)
  | [] => none
  | '"' :: rest => some rest
  | '\\' :: 'u' :: a :: b :: c :: d :: rest =>
    if (codeUnit? a b c d).isSome then skipString rest else none
  | '\\' :: e :: rest => if (unescape? e).isSome then skipString rest else none
  | c :: rest => if 0x20 ≤ c.toNat ∧ c ≠ '\\' then skipString rest else none

end TableGrid.Json
