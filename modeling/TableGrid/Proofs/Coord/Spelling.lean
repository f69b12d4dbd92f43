import Mathlib.Data.Nat.Digits.Defs
import TableGrid.Proofs.Coord.Address

/-!
# Which texts are addresses

An address is capital letters and then digits, where the letters and the digits stand for numbers of
64 bits and the row counts from one. Reading accepts exactly these texts: it adds letter by letter
and digit by digit, and since the number only grows on the way, a step is refused if and only if the
whole number is too large.

## Key results

- `foldl_eq_ofDigits`: reading from the front weighs each character by its place
- `IsAddress.ofAddress?_eq`, `exists_isAddress`: which texts are read, and as what
- `IsAddress.toList_address`: the address of what was read
- `reads_exactly_addresses`: all of it together
-/

namespace TableGrid

namespace Text

/-! ## Numbers by places -/

/-- Reading from the front, where what was read moves up one place with each character, weighs each
    character by its place. -/
theorem foldl_eq_ofDigits (base : Nat) (weight : Char → Nat) (cs : List Char) :
    cs.foldl (fun value c => value * base + weight c) 0 =
      Nat.ofDigits base (cs.reverse.map weight) := by
  rw [Nat.ofDigits_eq_foldr, List.map_reverse, List.foldr_reverse, List.foldl_map]
  congr 1
  funext value c
  rw [Nat.mul_comm, Nat.add_comm]
  rfl

end Text

namespace Coord

variable {text : String} {letters ds : List Char} {p : Coord}

/-! ## The grammar -/

/-- The number that the digits of an address stand for. -/
def rowNumber (ds : List Char) : Nat := Nat.ofDigits 10 (ds.reverse.map Text.digitValue)

/-- The number that the letters of an address stand for; no letter is a zero. -/
def columnNumber (letters : List Char) : Nat := Nat.ofDigits 26 (letters.reverse.map letterValue)

/-- Whether a text is an address with the given letters and digits. -/
structure IsAddress (text : String) (letters ds : List Char) : Prop where
  toList_eq : text.toList = letters ++ ds
  letters_ne : letters ≠ []
  ds_ne : ds ≠ []
  upper : ∀ c ∈ letters, 'A' ≤ c ∧ c ≤ 'Z'
  digit : ∀ c ∈ ds, '0' ≤ c ∧ c ≤ '9'
  row_pos : 1 ≤ rowNumber ds
  row_le : rowNumber ds ≤ Text.maxWord
  col_le : columnNumber letters ≤ Text.maxWord

/-- The coordinate that letters and digits name. -/
def named (letters ds : List Char) : Coord := ⟨rowNumber ds - 1, columnNumber letters - 1⟩

theorem isUpper_iff {c : Char} : c.isUpper = true ↔ 'A' ≤ c ∧ c ≤ 'Z' :=
  decide_eq_true_iff

theorem isDigit_iff {c : Char} : c.isDigit = true ↔ '0' ≤ c ∧ c ≤ '9' := by
  simp [Char.isDigit, Char.le_def]

theorem digitsValue_zero (ds : List Char) : Text.digitsValue 0 ds = rowNumber ds :=
  Text.foldl_eq_ofDigits 10 Text.digitValue ds

theorem lettersValue_zero (letters : List Char) : lettersValue 0 letters = columnNumber letters :=
  Text.foldl_eq_ofDigits 26 letterValue letters

namespace IsAddress

theorem isUpper (h : IsAddress text letters ds) : ∀ c ∈ letters, c.isUpper = true :=
  fun c hc => isUpper_iff.2 (h.upper c hc)

theorem isDigit (h : IsAddress text letters ds) : ∀ c ∈ ds, c.isDigit = true :=
  fun c hc => isDigit_iff.2 (h.digit c hc)

/-- The letters are a numeral, so they do not stand for zero. -/
theorem numeral_columnNumber (h : IsAddress text letters ds) :
    numeral (columnNumber letters) = letters := by
  rw [← lettersValue_zero, numeral_lettersValue 0 h.isUpper, numeral_zero, List.nil_append]

theorem columnNumber_pos (h : IsAddress text letters ds) : 0 < columnNumber letters := by
  refine Nat.pos_of_ne_zero fun hzero => h.letters_ne ?_
  rw [← h.numeral_columnNumber, hzero, numeral_zero]

/-! ## Reading -/

theorem columnOfLetters?_eq (h : IsAddress text letters ds) :
    columnOfLetters? (String.ofList letters) = .ok (columnNumber letters - 1) := by
  have hempty : (String.ofList letters).isEmpty = false := by
    simp [String.isEmpty_eq_false_iff, h.letters_ne]
  have hle : lettersValue 0 letters ≤ Text.maxWord := by
    rw [lettersValue_zero]
    exact h.col_le
  rw [columnOfLetters?, hempty, String.toList_ofList, readLetters_eq_ok h.isUpper hle,
    lettersValue_zero]
  rfl

/-- An address is read as the coordinate that its letters and digits name. -/
theorem ofAddress?_eq (h : IsAddress text letters ds) :
    ofAddress? text = .ok (named letters ds) := by
  have hdigits : ds.all Char.isDigit = true := List.all_eq_true.2 h.isDigit
  have hread : Text.readDigits Text.maxWord 0 ds = .ok (rowNumber ds) :=
    (Text.readDigits_eq_ok_iff (Nat.zero_le _)).2 ⟨h.isDigit, digitsValue_zero ds, h.row_le⟩
  obtain ⟨row, hrow⟩ := Nat.exists_eq_succ_of_ne_zero (Nat.ne_of_gt h.row_pos)
  rw [ofAddress?, h.toList_eq, span_append h.isUpper h.isDigit]
  simp only [List.isEmpty_iff, h.letters_ne, h.ds_ne, hdigits, hread, hrow, h.columnOfLetters?_eq,
    named, Bool.not_true, if_false]
  rfl

end IsAddress

theorem isDigit_of_mem_zeros_append {zeros n : Nat} :
    ∀ c ∈ List.replicate zeros '0' ++ Text.digits n, c.isDigit = true := by
  intro c hc
  rcases List.mem_append.1 hc with hzero | hdigit
  · rw [List.eq_of_mem_replicate hzero]
    decide
  · exact Text.isDigit_of_mem_digits hdigit

/-- What is read is an address, and read as what its letters and digits name. -/
theorem exists_isAddress (h : ofAddress? text = .ok p) :
    ∃ letters ds, IsAddress text letters ds ∧ named letters ds = p := by
  obtain ⟨hfits, zeros, hspell⟩ := spelling_of_ofAddress? h
  have hletters : columnNumber (columnLetters p.col) = p.col + 1 := by
    rw [← lettersValue_zero, columnLetters_of_lt hfits.2, lettersValue_numeral]
  have hds : rowNumber (List.replicate zeros '0' ++ Text.digits (p.row + 1)) = p.row + 1 := by
    rw [← digitsValue_zero, Text.digitsValue_zeros, Text.digitsValue_digits]
  refine ⟨_, _, ⟨hspell, columnLetters_ne_nil hfits.2, ?_, ?_, ?_, ?_, ?_, ?_⟩, ?_⟩
  · exact List.append_ne_nil_of_right_ne_nil _ (Text.digits_ne_nil _)
  · exact fun c hc => isUpper_iff.1 (isUpper_of_mem_columnLetters p.col c hc)
  · exact fun c hc => isDigit_iff.1 (isDigit_of_mem_zeros_append c hc)
  · rw [hds]
    omega
  · rw [hds]
    exact hfits.1
  · rw [hletters]
    exact hfits.2
  · rw [named, hds, hletters, Nat.add_sub_cancel, Nat.add_sub_cancel]

/-! ## Writing -/

/-- Zeros in front of a positive number are what is dropped of its digits. -/
theorem dropWhile_zeros (zeros row : Nat) :
    (List.replicate zeros '0' ++ Text.digits (row + 1)).dropWhile (· == '0') =
      Text.digits (row + 1) := by
  obtain ⟨c, cs, hcons, hc⟩ := Text.digits_eq_cons (Nat.succ_pos row)
  have hne : c ≠ '0' := fun heq => absurd hc (by rw [heq]; decide)
  rw [List.dropWhile_append_of_pos fun c hc => by rw [List.eq_of_mem_replicate hc]; rfl, hcons,
    List.dropWhile_cons_of_neg (by simp [hne])]

/-- The address of what was read has no zeros in front of the row number. -/
theorem IsAddress.toList_address (h : IsAddress text letters ds) :
    (named letters ds).address.toList = letters ++ ds.dropWhile (· == '0') := by
  have hread := h.ofAddress?_eq
  generalize named letters ds = p at hread ⊢
  obtain ⟨hfits, zeros, hspell⟩ := spelling_of_ofAddress? hread
  -- The text splits into capital letters and digits in one way only.
  have hsplit := span_append h.isUpper h.isDigit
  rw [← h.toList_eq, hspell, span_append (isUpper_of_mem_columnLetters _)
    isDigit_of_mem_zeros_append, Prod.mk.injEq] at hsplit
  obtain ⟨rfl, rfl⟩ := hsplit
  rw [Coord.toList_address, Text.nextWord_of_lt hfits.1, dropWhile_zeros]

/-- Exactly the addresses are read, as what their letters and digits stand for counted from one, and
    the address of what was read is the text without zeros in front of the row number. All other
    texts are refused. -/
theorem reads_exactly_addresses (text : String) :
    ((∃ p, ofAddress? text = .ok p) ↔ ∃ letters ds, IsAddress text letters ds) ∧
    (∀ letters ds, IsAddress text letters ds →
      ∃ p, ofAddress? text = .ok p ∧
        (p.row + 1 = rowNumber ds ∧ p.col + 1 = columnNumber letters) ∧
        p.address = String.ofList (letters ++ ds.dropWhile (· == '0'))) ∧
    ((¬∃ letters ds, IsAddress text letters ds) → ∃ fault, ofAddress? text = .error fault) := by
  have hread : (∃ p, ofAddress? text = .ok p) ↔ ∃ letters ds, IsAddress text letters ds := by
    constructor
    · rintro ⟨p, hp⟩
      obtain ⟨letters, ds, h, -⟩ := exists_isAddress hp
      exact ⟨letters, ds, h⟩
    · rintro ⟨letters, ds, h⟩
      exact ⟨named letters ds, h.ofAddress?_eq⟩
  refine ⟨hread, fun letters ds h => ?_, fun hnone => ?_⟩
  · -- Neither number is zero, so counting from zero loses nothing.
    have hrow : rowNumber ds - 1 + 1 = rowNumber ds := Nat.sub_add_cancel h.row_pos
    have hcol : columnNumber letters - 1 + 1 = columnNumber letters :=
      Nat.sub_add_cancel h.columnNumber_pos
    refine ⟨named letters ds, h.ofAddress?_eq, ⟨hrow, hcol⟩, ?_⟩
    rw [← h.toList_address, String.ofList_toList]
  · cases htext : ofAddress? text with
    | ok p => exact absurd (hread.1 ⟨p, htext⟩) hnone
    | error fault => exact ⟨fault, rfl⟩

/-- The last cell that has an address, with zeros in front of its row number. -/
def lastSpelling : String := "GKGWBYLWRXTLPO0018446744073709551615"

theorem reads_exactly_addresses_last :
    IsAddress lastSpelling "GKGWBYLWRXTLPO".toList "0018446744073709551615".toList ∧
    ofAddress? lastSpelling = .ok ⟨Text.maxWord - 1, Text.maxWord - 1⟩ ∧
    address ⟨Text.maxWord - 1, Text.maxWord - 1⟩ = "GKGWBYLWRXTLPO18446744073709551615" := by
  have hupper : "GKGWBYLWRXTLPO".toList.all Char.isUpper = true := by decide
  have hdigit : "0018446744073709551615".toList.all Char.isDigit = true := by decide
  have h : IsAddress lastSpelling "GKGWBYLWRXTLPO".toList "0018446744073709551615".toList :=
    ⟨by decide, by decide, by decide, fun c hc => isUpper_iff.1 (List.all_eq_true.1 hupper c hc),
      fun c hc => isDigit_iff.1 (List.all_eq_true.1 hdigit c hc), by decide, by decide, by decide⟩
  obtain ⟨⟨row, col⟩, hread, ⟨hrow, hcol⟩, haddress⟩ :=
    (reads_exactly_addresses lastSpelling).2.1 _ _ h
  have hrows : rowNumber "0018446744073709551615".toList = Text.maxWord := by decide
  have hcols : columnNumber "GKGWBYLWRXTLPO".toList = Text.maxWord := by decide
  obtain rfl : row = Text.maxWord - 1 := Nat.eq_sub_of_add_eq (hrow.trans hrows)
  obtain rfl : col = Text.maxWord - 1 := Nat.eq_sub_of_add_eq (hcol.trans hcols)
  exact ⟨h, hread, haddress⟩

end Coord

end TableGrid
