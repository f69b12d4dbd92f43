import TableGrid.Text.Blank

/-! # Reading and writing whole numbers

A whole number is written in decimal digits, optionally after a sign.  Reading goes
from left to right and stops at the first character that is no digit or that takes the
value past the limit, so the fault names whichever comes first.

* `readDigits`     digits onto a value already read, up to a limit
* `readUnsigned`   a number of at most `limit`, a leading `+` allowed
* `readSigned`     a 64-bit signed number, a leading `+` or `-` allowed
* `digits`         the decimal digits of a number, without leading zeros

`readDigits_digits` says that the digits of a number within the limit read back.
-/

namespace TableGrid.Text

/-- Why a text is no whole number of the wanted kind. -/
inductive IntegerFault where
  | empty
  | invalidDigit
  | tooLarge
  | tooSmall
deriving DecidableEq, Repr

/-- The wording of a fault. -/
def IntegerFault.message : IntegerFault → String
  | .empty => "cannot parse integer from empty string"
  | .invalidDigit => "invalid digit found in string"
  | .tooLarge => "number too large to fit in target type"
  | .tooSmall => "number too small to fit in target type"

/-- The largest unsigned number of 64 bits, which bounds indices and counts. -/
def maxWord : Nat := Nat.pow 2 64 - 1

/-- The word of 64 bits that comes after another one.  The last one is followed by zero. -/
def nextWord (n : Nat) : Nat := if n = maxWord then 0 else n + 1

theorem nextWord_of_lt {n : Nat} (h : n < maxWord) : nextWord n = n + 1 :=
  if_neg (Nat.ne_of_lt h)

theorem nextWord_inj {m n : Nat} : nextWord m = nextWord n ↔ m = n := by
  unfold nextWord
  split <;> split <;> omega

/-- The value of a decimal digit. -/
def digit? (c : Char) : Option Nat :=
  if c.isDigit then some (c.toNat - '0'.toNat) else none

/-- Read further digits onto `value`.  A character that is no digit is a fault, and so is
    a digit that takes the value past `limit`; the leftmost fault is reported. -/
def readDigits (limit : Nat) (value : Nat) : List Char → Except IntegerFault Nat
  | [] => .ok value
  | c :: cs =>
    match digit? c with
    | none => .error .invalidDigit
    | some d =>
      if value * 10 + d ≤ limit then readDigits limit (value * 10 + d) cs
      else .error .tooLarge

/-- Read a number from `0` to `limit`; a `+` may stand in front. -/
def readUnsigned (limit : Nat) : List Char → Except IntegerFault Nat
  | [] => .error .empty
  | ['+'] => .error .invalidDigit
  | '+' :: cs => readDigits limit 0 cs
  | cs => readDigits limit 0 cs

/-- Read a signed number of 64 bits; a `+` or a `-` may stand in front. -/
def readSigned : List Char → Except IntegerFault Int64
  | [] => .error .empty
  | ['+'] => .error .invalidDigit
  | ['-'] => .error .invalidDigit
  | '+' :: cs => (readDigits (Nat.pow 2 63 - 1) 0 cs).map Int64.ofNat
  | '-' :: cs =>
    match readDigits (Nat.pow 2 63) 0 cs with
    | .ok n => .ok (Int64.ofInt (-n))
    | .error .tooLarge => .error .tooSmall
    | .error fault => .error fault
  | cs => (readDigits (Nat.pow 2 63 - 1) 0 cs).map Int64.ofNat

/-- The decimal digits of a number, most significant first. -/
def digits (n : Nat) : List Char := Nat.toDigits 10 n

/-- The decimal text of a number. -/
def showNat (n : Nat) : String := String.ofList (digits n)

/-- The decimal text of a number with its sign. -/
def showInt (n : Int) : String :=
  if n < 0 then String.ofList ('-' :: digits n.natAbs) else showNat n.natAbs

/-! ### Reading back what was written -/

theorem digit?_digitChar {d : Nat} (h : d < 10) : digit? (Nat.digitChar d) = some d := by
  have : d = 0 ∨ d = 1 ∨ d = 2 ∨ d = 3 ∨ d = 4 ∨ d = 5 ∨ d = 6 ∨ d = 7 ∨ d = 8 ∨ d = 9 := by
    omega
  rcases this with h | h | h | h | h | h | h | h | h | h <;> subst h <;> decide

/-- A value that fits is read wherever the reading of its prefix arrived. -/
theorem readDigits_append (limit value : Nat) (s t : List Char) :
    readDigits limit value (s ++ t) = (readDigits limit value s).bind (readDigits limit · t) := by
  induction s generalizing value with
  | nil => rfl
  | cons c cs ih =>
    simp only [List.cons_append, readDigits]
    split
    · rfl
    · split
      · exact ih _
      · rfl

/-- The digits of a number within the limit read back to that number. -/
theorem readDigits_digits {limit n : Nat} (h : n ≤ limit) :
    readDigits limit 0 (digits n) = .ok n := by
  induction n using Nat.strongRecOn with
  | _ n ih =>
    unfold digits
    rw [Nat.toDigits_eq_if (by decide)]
    split
    · rename_i hlt
      simp [readDigits, digit?_digitChar hlt, h]
    · rename_i hge
      have hdiv : n / 10 < n := by omega
      have := ih (n / 10) hdiv (by omega)
      unfold digits at this
      rw [readDigits_append, this]
      have hmod : n % 10 < 10 := Nat.mod_lt _ (by decide)
      have heq : n / 10 * 10 + n % 10 = n := by omega
      simp [Except.bind, readDigits, digit?_digitChar hmod, heq, h]

end TableGrid.Text
