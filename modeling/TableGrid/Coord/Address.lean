import TableGrid.Coord.Basic

/-! # Spreadsheet addresses

An address such as `C5` names the column by letters and the row by a number that counts
from one.  The letters are a bijective numeral of base 26: `A` to `Z`, then `AA`, `AB`
and so on, so no letter stands for zero and every column has one name.

* `Coord.address`          the address of a coordinate
* `Coord.ofAddress?`       the coordinate of an address, or why there is none
* `Coord.columnLetters`, `Coord.columnOfLetters?`   the same for a column alone

Reading accepts capital letters and digits only, and numbers of 64 bits.  The last index of
64 bits has no number that counts from one, so its address has a row zero or no letters and
does not read back.
-/

namespace TableGrid

/-- Why a text is no address. -/
inductive AddressFault where
  | noLetters (text : String)
  | noDigits (text : String)
  | invalidRow (text : String)
  | rowTooLarge (text : String)
  | rowZero (text : String)
  | emptyLetters
  /-- A character that is no capital letter, given by the first byte of its UTF-8 form. -/
  | invalidLetter (byte : UInt8)
  | columnTooLarge (letters : String)
deriving DecidableEq, Repr

/-- The wording of a fault.  An invalid letter shows as the character that its first byte
    stands for. -/
def AddressFault.message : AddressFault → String
  | .noLetters text => "no column letters in '" ++ text ++ "'"
  | .noDigits text => "no row number in '" ++ text ++ "'"
  | .invalidRow text => "invalid row number in '" ++ text ++ "'"
  | .rowTooLarge text => "row number too large in '" ++ text ++ "'"
  | .rowZero text => "row number must be >= 1 in '" ++ text ++ "'"
  | .emptyLetters => "empty column letters"
  | .invalidLetter byte => "invalid column letter '" ++ String.singleton (Char.ofUInt8 byte) ++ "'"
  | .columnTooLarge letters => "column '" ++ letters ++ "' is too large"

namespace Coord

/-! ### Columns -/

/-- The letter of a digit below 26. -/
def letter (n : Nat) : Char := Char.ofNat ('A'.toNat + n)

/-- The value of a column letter, from 1 for `A` to 26 for `Z`. -/
def letterValue (c : Char) : Nat := c.toNat - 'A'.toNat + 1

/-- The bijective numeral of base 26 for a number; zero has the empty numeral. -/
def numeral (n : Nat) : List Char :=
  if n = 0 then []
  else numeral ((n - 1) / 26) ++ [letter ((n - 1) % 26)]
termination_by n
decreasing_by omega

/-- The letters of a column. -/
def columnLetters (col : Nat) : List Char := numeral (Text.nextWord col)

/-- Read letters onto a value already read, refusing whatever is no capital letter and a
    value of more than 64 bits; the leftmost fault is reported.  `letters` is the whole
    numeral, for the message. -/
def readLetters (letters : String) (value : Nat) : List Char → Except AddressFault Nat
  | [] => .ok value
  | c :: cs =>
    if c.isUpper then
      if value * 26 + letterValue c ≤ Text.maxWord then
        readLetters letters (value * 26 + letterValue c) cs
      else .error (.columnTooLarge letters)
    else .error (.invalidLetter ((String.utf8EncodeChar c).headD 0))

/-- The column that letters name. -/
def columnOfLetters? (letters : String) : Except AddressFault Nat :=
  if letters.isEmpty then .error .emptyLetters
  else (readLetters letters 0 letters.toList).map (· - 1)

/-! ### Addresses -/

/-- The address of a coordinate. -/
def address (p : Coord) : String :=
  String.ofList (columnLetters p.col ++ Text.digits (Text.nextWord p.row))

/-- The coordinate that an address names.  The letters are the capital letters in front; all
    that follows them must be digits. -/
def ofAddress? (text : String) : Except AddressFault Coord :=
  let (letters, ds) := text.toList.span Char.isUpper
  if letters.isEmpty then .error (.noLetters text)
  else if ds.isEmpty then .error (.noDigits text)
  else if !ds.all Char.isDigit then .error (.invalidRow text)
  else
    match Text.readDigits Text.maxWord 0 ds with
    | .error _ => .error (.rowTooLarge text)
    | .ok 0 => .error (.rowZero text)
    | .ok (row + 1) =>
      (columnOfLetters? (String.ofList letters)).map fun col => ⟨row, col⟩

end Coord

end TableGrid
