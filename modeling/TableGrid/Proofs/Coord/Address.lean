import Mathlib.Data.List.TakeDrop
import TableGrid.Coord.Address

/-!
# Addresses name coordinates

Reading and writing of addresses are inverse to each other, up to zeros in front of the row
number. Among all texts that name one cell the address of the cell is the last one in the order
of keys, which is what lets an entry stored under it win over its aliases.

## Key results

- `readDigits_eq_ok_iff`: which digits are read, and as what
- `ofAddress?_address`: the address of a coordinate is read back as that coordinate
- `eq_of_ofAddress?_address`: an address names no other coordinate
- `address_injective`: different coordinates have different addresses
- `spelling_of_ofAddress?`: a text that names a coordinate is its address with zeros inserted
- `eq_or_lt_of_ofAddress?`: such a text is the address or comes before it
-/

namespace TableGrid

namespace Text

variable {limit value n : Nat} {cs : List Char}

/-! ## Digits of row numbers -/

/-- A digit is the character of its value. -/
theorem digitChar_digit? {c : Char} {d : Nat} (h : digit? c = some d) :
    d < 10 ∧ Nat.digitChar d = c := by
  unfold digit? at h
  split at h
  · rename_i hc
    simp only [Char.isDigit, Bool.and_eq_true, decide_eq_true_eq, ge_iff_le] at hc
    have h0 : 48 ≤ c.toNat := UInt32.le_iff_toNat_le.1 hc.1
    have h9 : c.toNat ≤ 57 := UInt32.le_iff_toNat_le.1 hc.2
    have hd : c.toNat - 48 = d := Option.some.inj h
    refine ⟨by omega, ?_⟩
    apply Char.toNat_inj.1
    rw [Nat.toNat_digitChar_of_lt_ten (by omega)]
    omega
  · cases h

/-- The value of a digit. -/
def digitValue (c : Char) : Nat := c.toNat - '0'.toNat

/-- The number that digits stand for, read onto a value. -/
def digitsValue (value : Nat) (cs : List Char) : Nat :=
  cs.foldl (fun value c => value * 10 + digitValue c) value

theorem le_digitsValue (value : Nat) (cs : List Char) : value ≤ digitsValue value cs := by
  induction cs generalizing value with
  | nil => exact Nat.le_refl _
  | cons c cs ih =>
    have hrest := ih (value * 10 + digitValue c)
    simp only [digitsValue, List.foldl_cons] at hrest ⊢
    omega

/-- Exactly the digits are read whose number is within the limit. -/
theorem readDigits_eq_ok_iff (hvalue : value ≤ limit) :
    readDigits limit value cs = .ok n ↔
      (∀ c ∈ cs, c.isDigit = true) ∧ digitsValue value cs = n ∧ n ≤ limit := by
  induction cs generalizing value with
  | nil =>
    rw [readDigits, Except.ok.injEq]
    constructor
    · rintro rfl
      exact ⟨List.forall_mem_nil _, rfl, hvalue⟩
    · exact fun h => h.2.1
  | cons c cs ih =>
    have hvalues : digitsValue value (c :: cs) = digitsValue (value * 10 + digitValue c) cs := rfl
    rw [readDigits, List.forall_mem_cons, hvalues]
    by_cases hc : c.isDigit = true
    · have hdigit : digit? c = some (digitValue c) := if_pos hc
      rw [hdigit]
      dsimp only
      by_cases hle : value * 10 + digitValue c ≤ limit
      · rw [if_pos hle, ih hle]
        simp only [hc, true_and]
      · -- The number that all digits stand for is no less.
        rw [if_neg hle]
        have hgrow := le_digitsValue (value * 10 + digitValue c) cs
        constructor
        · intro hread
          cases hread
        · rintro ⟨-, rfl, hlimit⟩
          omega
    · have hdigit : digit? c = none := if_neg hc
      rw [hdigit]
      constructor
      · intro hread
        cases hread
      · rintro ⟨⟨hd, -⟩, -⟩
        exact absurd hd hc

theorem digitsValue_zeros (zeros : Nat) (cs : List Char) :
    digitsValue 0 (List.replicate zeros '0' ++ cs) = digitsValue 0 cs := by
  induction zeros with
  | zero => rfl
  | succ zeros ih => exact ih

theorem digitsValue_digits (n : Nat) : digitsValue 0 (digits n) = n :=
  ((readDigits_eq_ok_iff (Nat.zero_le n)).1 (readDigits_digits (Nat.le_refl n))).2.1

/-- Different numbers have different digits. -/
theorem digits_injective : Function.Injective digits :=
  Function.LeftInverse.injective digitsValue_digits

/-- Digits read onto a positive value are those that follow its own digits. -/
theorem digits_append_of_readDigits (hv : 0 < value)
    (h : readDigits limit value cs = .ok n) : digits value ++ cs = digits n := by
  induction cs generalizing value with
  | nil =>
    simp only [readDigits, Except.ok.injEq] at h
    rw [h, List.append_nil]
  | cons c cs ih =>
    simp only [readDigits] at h
    split at h
    · cases h
    · rename_i d hd
      obtain ⟨hlt, hc⟩ := digitChar_digit? hd
      split at h
      -- One more digit read is one more digit written.
      · have hdigits : digits value ++ [c] = digits (value * 10 + d) := by
          have := Nat.toDigits_append_toDigits (b := 10) (by decide) hv hlt
          rw [Nat.toDigits_of_lt_base hlt, hc, Nat.mul_comm] at this
          exact this
        rw [List.append_cons, hdigits]
        exact ih (by omega) h
      · cases h

/-- A text read as a positive number is its digits with zeros in front. -/
theorem spelling_of_readDigits (hn : 0 < n)
    (h : readDigits limit 0 cs = .ok n) :
    ∃ zeros, cs = List.replicate zeros '0' ++ digits n := by
  induction cs with
  | nil =>
    simp only [readDigits, Except.ok.injEq] at h
    omega
  | cons c cs ih =>
    simp only [readDigits] at h
    split at h
    · cases h
    · rename_i d hd
      obtain ⟨hlt, hc⟩ := digitChar_digit? hd
      split at h
      · rw [Nat.zero_mul, Nat.zero_add] at h
        -- A zero leaves the value at zero; any other digit starts the digits of the number.
        rcases Nat.eq_zero_or_pos d with rfl | hpos
        · obtain ⟨zeros, hcs⟩ := ih h
          refine ⟨zeros + 1, ?_⟩
          rw [List.replicate_succ, List.cons_append, ← hcs, ← hc]
          rfl
        · refine ⟨0, ?_⟩
          rw [← digits_append_of_readDigits hpos h, digits, Nat.toDigits_of_lt_base hlt, hc]
          rfl
      · cases h

theorem digits_ne_nil (n : Nat) : digits n ≠ [] := Nat.toDigits_ne_nil

theorem isDigit_of_mem_digits {c : Char} (h : c ∈ digits n) : c.isDigit = true :=
  Nat.isDigit_of_mem_toDigits (by decide) (by decide) h

/-- The digits of a positive number do not start with a zero. -/
theorem digits_eq_cons (hn : 0 < n) : ∃ c cs, digits n = c :: cs ∧ '0' < c := by
  induction n using Nat.strongRecOn with
  | _ n ih =>
    unfold digits
    rw [Nat.toDigits_eq_if (by decide)]
    split
    · rename_i hlt
      refine ⟨Nat.digitChar n, [], rfl, ?_⟩
      have : n = 1 ∨ n = 2 ∨ n = 3 ∨ n = 4 ∨ n = 5 ∨ n = 6 ∨ n = 7 ∨ n = 8 ∨ n = 9 := by omega
      rcases this with h | h | h | h | h | h | h | h | h <;> subst h <;> decide
    -- A number of several digits starts like the number without its last digit.
    · obtain ⟨c, cs, hcs, hc⟩ := ih (n / 10) (by omega) (by omega)
      unfold digits at hcs
      exact ⟨c, cs ++ [Nat.digitChar (n % 10)], by rw [hcs]; rfl, hc⟩

end Text

namespace Coord

/-! ## Column letters -/

theorem numeral_zero : numeral 0 = [] := by
  rw [numeral]
  rfl

theorem numeral_succ (n : Nat) : numeral (n + 1) = numeral (n / 26) ++ [letter (n % 26)] := by
  rw [numeral, if_neg (by omega), Nat.add_sub_cancel]

theorem columnLetters_of_lt {col : Nat} (h : col < Text.maxWord) :
    columnLetters col = numeral (col + 1) := by
  rw [columnLetters, Text.nextWord_of_lt h]

theorem columnLetters_ne_nil {col : Nat} (h : col < Text.maxWord) : columnLetters col ≠ [] := by
  rw [columnLetters_of_lt h, numeral_succ]
  simp

/-- The number that letters stand for, read onto a value. -/
def lettersValue (value : Nat) (cs : List Char) : Nat :=
  cs.foldl (fun value c => value * 26 + letterValue c) value

theorem lettersValue_append (value : Nat) (cs ds : List Char) :
    lettersValue value (cs ++ ds) = lettersValue (lettersValue value cs) ds :=
  List.foldl_append

theorem le_lettersValue (value : Nat) (cs : List Char) : value ≤ lettersValue value cs := by
  induction cs generalizing value with
  | nil => exact Nat.le_refl _
  | cons c cs ih =>
    have := ih (value * 26 + letterValue c)
    simp only [lettersValue, List.foldl_cons] at this ⊢
    omega

theorem letter_letterValue :
    ∀ n < 26, (letter n).isUpper = true ∧ letterValue (letter n) = n + 1 := by
  decide

/-- A capital letter is the letter of its value. -/
theorem letter_of_isUpper {c : Char} (h : c.isUpper = true) :
    1 ≤ letterValue c ∧ letterValue c ≤ 26 ∧ letter (letterValue c - 1) = c := by
  have hrange : 'A'.val ≤ c.val ∧ c.val ≤ 'Z'.val := of_decide_eq_true h
  have hA : 65 ≤ c.toNat := UInt32.le_iff_toNat_le.1 hrange.1
  have hZ : c.toNat ≤ 90 := UInt32.le_iff_toNat_le.1 hrange.2
  have hv : letterValue c = c.toNat - 65 + 1 := rfl
  refine ⟨by omega, by omega, ?_⟩
  rw [hv, Nat.add_sub_cancel, letter, show 'A'.toNat + (c.toNat - 65) = c.toNat from by
    show 65 + (c.toNat - 65) = c.toNat
    omega]
  exact Char.ofNat_toNat c

theorem isUpper_of_mem_numeral (n : Nat) : ∀ c ∈ numeral n, c.isUpper = true := by
  induction n using Nat.strongRecOn with
  | _ n ih =>
    cases n with
    | zero => simp [numeral_zero]
    | succ n =>
      intro c hc
      rw [numeral_succ, List.mem_append, List.mem_singleton] at hc
      rcases hc with hc | rfl
      · exact ih (n / 26) (by omega) c hc
      · exact (letter_letterValue _ (Nat.mod_lt _ (by decide))).1

/-- The numeral of a number stands for it. -/
theorem lettersValue_numeral (n : Nat) : lettersValue 0 (numeral n) = n := by
  induction n using Nat.strongRecOn with
  | _ n ih =>
    cases n with
    | zero => simp [numeral_zero, lettersValue]
    | succ n =>
      have hlast := (letter_letterValue (n % 26) (Nat.mod_lt _ (by decide))).2
      rw [numeral_succ, lettersValue_append, ih (n / 26) (by omega)]
      simp only [lettersValue, List.foldl_cons, List.foldl_nil, hlast]
      omega

/-- Different numbers have different numerals. -/
theorem numeral_injective : Function.Injective numeral :=
  Function.LeftInverse.injective lettersValue_numeral

/-- Letters read onto a value are those that follow its own numeral. -/
theorem numeral_lettersValue (value : Nat) {cs : List Char} (h : ∀ c ∈ cs, c.isUpper = true) :
    numeral (lettersValue value cs) = numeral value ++ cs := by
  induction cs generalizing value with
  | nil => simp [lettersValue]
  | cons c cs ih =>
    obtain ⟨hpos, hle, hc⟩ := letter_of_isUpper (h c (by simp))
    -- One more letter read is one more letter written.
    have hstep : numeral (value * 26 + letterValue c) = numeral value ++ [c] := by
      rw [show value * 26 + letterValue c = value * 26 + (letterValue c - 1) + 1 from by omega,
        numeral_succ, show (value * 26 + (letterValue c - 1)) / 26 = value from by omega,
        show (value * 26 + (letterValue c - 1)) % 26 = letterValue c - 1 from by omega, hc]
    have := ih (value * 26 + letterValue c) fun d hd => h d (by simp [hd])
    simp only [lettersValue, List.foldl_cons] at this ⊢
    rw [this, hstep, List.append_assoc]
    rfl

/-- Capital letters whose value fits are read. -/
theorem readLetters_eq_ok {text : String} {value : Nat} {cs : List Char}
    (h : ∀ c ∈ cs, c.isUpper = true) (hle : lettersValue value cs ≤ Text.maxWord) :
    readLetters text value cs = .ok (lettersValue value cs) := by
  induction cs generalizing value with
  | nil => rfl
  | cons c cs ih =>
    have hstep : value * 26 + letterValue c ≤ lettersValue (value * 26 + letterValue c) cs :=
      le_lettersValue _ _
    simp only [lettersValue, List.foldl_cons] at hle hstep ⊢
    rw [readLetters, if_pos (h c (by simp)), if_pos (by omega)]
    exact ih (fun d hd => h d (by simp [hd])) hle

/-- Only capital letters are read, and as the number they stand for. -/
theorem of_readLetters_eq_ok {text : String} {value n : Nat} {cs : List Char}
    (hv : value ≤ Text.maxWord) (h : readLetters text value cs = .ok n) :
    (∀ c ∈ cs, c.isUpper = true) ∧ lettersValue value cs = n ∧ n ≤ Text.maxWord := by
  induction cs generalizing value with
  | nil =>
    simp only [readLetters, Except.ok.injEq] at h
    exact ⟨by simp, h, by omega⟩
  | cons c cs ih =>
    rw [readLetters] at h
    split at h
    · rename_i hc
      split at h
      · obtain ⟨hall, hval, hle⟩ := ih ‹_› h
        exact ⟨by simpa [hc] using hall, hval, hle⟩
      · cases h
    · cases h

/-! ## Addresses -/

/-- Whether the row number and the column number of a coordinate are words of 64 bits. -/
def Fits (p : Coord) : Prop := p.row < Text.maxWord ∧ p.col < Text.maxWord

theorem toList_address (p : Coord) :
    p.address.toList = columnLetters p.col ++ Text.digits (Text.nextWord p.row) := by
  rw [address, String.toList_ofList]

private theorem not_isUpper_of_isDigit {c : Char} (h : c.isDigit = true) : c.isUpper = false := by
  simp only [Char.isDigit, Bool.and_eq_true, decide_eq_true_eq, ge_iff_le] at h
  have h9 : c.toNat ≤ 57 := UInt32.le_iff_toNat_le.1 h.2
  rw [Bool.eq_false_iff]
  intro hupper
  have hrange : 'A'.val ≤ c.val ∧ c.val ≤ 'Z'.val := of_decide_eq_true hupper
  have hA : 65 ≤ c.toNat := UInt32.le_iff_toNat_le.1 hrange.1
  omega

/-- Capital letters in front of digits are what `ofAddress?` splits off. -/
theorem span_append {letters ds : List Char} (hl : ∀ c ∈ letters, c.isUpper = true)
    (hd : ∀ c ∈ ds, c.isDigit = true) :
    (letters ++ ds).span Char.isUpper = (letters, ds) := by
  have hds : ds.takeWhile Char.isUpper = [] ∧ ds.dropWhile Char.isUpper = ds := by
    cases ds with
    | nil => exact ⟨rfl, rfl⟩
    | cons c cs =>
      have := not_isUpper_of_isDigit (hd c (by simp))
      simp [this]
  rw [List.span_eq_takeWhile_dropWhile, List.takeWhile_append_of_pos hl,
    List.dropWhile_append_of_pos hl, hds.1, hds.2, List.append_nil]

theorem isUpper_of_mem_columnLetters (col : Nat) : ∀ c ∈ columnLetters col, c.isUpper = true :=
  isUpper_of_mem_numeral _

/-- Different coordinates have different addresses, also those that do not read back. -/
theorem address_injective : Function.Injective address := by
  intro p q h
  have hsplit := fun r : Coord => span_append (isUpper_of_mem_columnLetters r.col)
    fun c hc => Text.isDigit_of_mem_digits (n := Text.nextWord r.row) hc
  -- The address splits into the letters and the digits, and each of them names its number.
  have hparts : (columnLetters p.col, Text.digits (Text.nextWord p.row)) =
      (columnLetters q.col, Text.digits (Text.nextWord q.row)) := by
    rw [← hsplit p, ← hsplit q, ← toList_address, ← toList_address, h]
  obtain ⟨hletters, hdigits⟩ := Prod.mk.inj hparts
  have hcol := Text.nextWord_inj.1 (numeral_injective hletters)
  have hrow := Text.nextWord_inj.1 (Text.digits_injective hdigits)
  cases p
  cases q
  simp_all

/-- The letters of a column read back. -/
theorem columnOfLetters?_columnLetters {col : Nat} (h : col < Text.maxWord) :
    columnOfLetters? (String.ofList (columnLetters col)) = .ok col := by
  have hval : lettersValue 0 (columnLetters col) = col + 1 := by
    rw [columnLetters_of_lt h, lettersValue_numeral]
  have hempty : (String.ofList (columnLetters col)).isEmpty = false := by
    simp [String.isEmpty_eq_false_iff, columnLetters_ne_nil h]
  rw [columnOfLetters?, hempty, String.toList_ofList,
    readLetters_eq_ok (isUpper_of_mem_columnLetters col) (by rw [hval]; exact h), hval]
  rfl

/-- The address of a coordinate reads back. -/
theorem ofAddress?_address {p : Coord} (h : p.Fits) : ofAddress? p.address = .ok p := by
  have hspan := @span_append _ (Text.digits (p.row + 1)) (isUpper_of_mem_columnLetters p.col)
    fun c hc => Text.isDigit_of_mem_digits hc
  rw [ofAddress?, toList_address, Text.nextWord_of_lt h.1, hspan]
  simp only [List.isEmpty_iff, columnLetters_ne_nil h.2, Text.digits_ne_nil, if_false]
  rw [if_neg (by simp; exact fun c hc => Text.isDigit_of_mem_digits hc),
    Text.readDigits_digits h.1]
  simp only [columnOfLetters?_columnLetters h.2]
  rfl

/-- A text that names a coordinate is its address with zeros in front of the row number. -/
theorem spelling_of_ofAddress? {text : String} {p : Coord} (h : ofAddress? text = .ok p) :
    p.Fits ∧ ∃ zeros, text.toList =
      columnLetters p.col ++ (List.replicate zeros '0' ++ Text.digits (p.row + 1)) := by
  have hsplit : (text.toList.span Char.isUpper).1 ++ (text.toList.span Char.isUpper).2 =
      text.toList := by
    rw [List.span_eq_takeWhile_dropWhile]
    exact List.takeWhile_append_dropWhile
  rw [ofAddress?] at h
  generalize text.toList.span Char.isUpper = parts at h hsplit
  obtain ⟨letters, ds⟩ := parts
  simp only at h hsplit
  -- The ways to fail are closed one after the other; what is left has read a row and a column.
  split at h
  · cases h
  split at h
  · cases h
  split at h
  · cases h
  split at h
  · cases h
  · cases h
  · rename_i hempty _ _ _ row hrow
    cases hcol : columnOfLetters? (String.ofList letters) with
    | error fault =>
      rw [hcol] at h
      cases h
    | ok col =>
      rw [hcol] at h
      obtain rfl : (⟨row, col⟩ : Coord) = p := Except.ok.inj h
      rw [columnOfLetters?] at hcol
      split at hcol
      · cases hcol
      rw [String.toList_ofList] at hcol
      cases hread : readLetters (String.ofList letters) 0 letters with
      | error fault =>
        rw [hread] at hcol
        cases hcol
      | ok n =>
        rw [hread] at hcol
        obtain rfl : n - 1 = col := Except.ok.inj hcol
        obtain ⟨hall, hval, hle⟩ := of_readLetters_eq_ok (by decide) hread
        have hnum : numeral n = letters := by
          rw [← hval, numeral_lettersValue 0 hall, numeral_zero, List.nil_append]
        -- There is a letter, so the letters do not stand for zero.
        have hn : n ≠ 0 := by
          rintro rfl
          rw [numeral_zero] at hnum
          exact hempty (by rw [← hnum]; rfl)
        have hrowle := ((Text.readDigits_eq_ok_iff (Nat.zero_le _)).1 hrow).2.2
        obtain ⟨zeros, hzeros⟩ := Text.spelling_of_readDigits (by omega) hrow
        have hcol : n - 1 < Text.maxWord := by omega
        refine ⟨⟨by show row < _; omega, hcol⟩, zeros, ?_⟩
        rw [← hsplit, ← hzeros, columnLetters_of_lt hcol, Nat.sub_add_cancel (by omega), hnum]

/-- An address names no other coordinate. -/
theorem eq_of_ofAddress?_address {p q : Coord} (h : ofAddress? q.address = .ok p) : q = p := by
  obtain ⟨hfits, zeros, hspell⟩ := spelling_of_ofAddress? h
  rw [toList_address] at hspell
  -- Both sides split into letters and digits, so the parts agree.
  have hq := span_append (isUpper_of_mem_columnLetters q.col)
    fun c hc => Text.isDigit_of_mem_digits (n := Text.nextWord q.row) hc
  have hp := @span_append _ (List.replicate zeros '0' ++ Text.digits (p.row + 1))
    (isUpper_of_mem_columnLetters p.col) fun c hc => by
      rw [List.mem_append, List.mem_replicate] at hc
      rcases hc with ⟨-, rfl⟩ | hc
      · decide
      · exact Text.isDigit_of_mem_digits hc
  rw [hspell, hp, Prod.mk.injEq] at hq
  obtain ⟨hletters, hdigits⟩ := hq
  have hcol : p.col = q.col := Text.nextWord_inj.1 (numeral_injective hletters)
  -- With zeros in front or without, the digits stand for the number that they are read as.
  have hrow : p.row = q.row := by
    rw [← Text.nextWord_inj, Text.nextWord_of_lt hfits.1, ← Text.digitsValue_digits (p.row + 1),
      ← Text.digitsValue_zeros zeros, hdigits, Text.digitsValue_digits]
  cases p
  cases q
  simp_all

/-- Coordinates that fit have different addresses. -/
theorem address_inj {p q : Coord} (h : p.Fits) : p.address = q.address ↔ p = q := by
  constructor
  · intro heq
    exact (eq_of_ofAddress?_address (by rw [← heq]; exact ofAddress?_address h)).symm
  · rintro rfl
    rfl

/-- Among the texts that name a coordinate its address comes last. -/
theorem eq_or_lt_of_ofAddress? {text : String} {p : Coord} (h : ofAddress? text = .ok p) :
    text = p.address ∨ compare text p.address = .lt := by
  obtain ⟨hfits, zeros, hspell⟩ := spelling_of_ofAddress? h
  cases zeros with
  | zero =>
    left
    apply String.toList_injective
    rw [hspell, toList_address, Text.nextWord_of_lt hfits.1]
    rfl
  | succ zeros =>
    right
    obtain ⟨c, cs, hcons, hc⟩ := Text.digits_eq_cons (n := p.row + 1) (by omega)
    -- Behind the letters a zero meets the first digit of the address, which is larger.
    have hlt : text < p.address := by
      show text.toList < p.address.toList
      rw [hspell, toList_address, Text.nextWord_of_lt hfits.1, hcons, List.replicate_succ]
      exact List.append_left_lt (.rel hc)
    show compareOfLessAndEq text p.address = .lt
    rw [compareOfLessAndEq, if_pos hlt]

end Coord

end TableGrid
