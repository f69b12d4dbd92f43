import TableGrid.Proofs.Coord.Spelling

/-!
# Which texts are whole numbers

A whole number is spelled by digits, with a sign in front or without. Reading accepts exactly these
texts, as long as the number is a word of 64 bits, and blanks at both ends are trimmed first.

## Key results

- `readSigned_eq_ok_iff`: which texts are read, and as what
- `readSigned_showInt_eq_error`: the decimal text of a number that is no word is not read
- `trim_blank_append`, `trim_append_blank`: blanks at the ends do not count
- `readSigned_trim_eq_ok_iff`: which texts are read after trimming
- `spells_showInt`: the decimal text of a number spells it
-/

namespace TableGrid.Text

variable {cs ds before after item : List Char} {c : Char} {i j : Int} {n : Int64}

/-! ## Numerals -/

/-- Whether a text is made of digits, at least one. -/
structure IsNumeral (ds : List Char) : Prop where
  ne_nil : ds ≠ []
  digit : ∀ c ∈ ds, '0' ≤ c ∧ c ≤ '9'

/-- How integers are spelled. -/
inductive Spells : List Char → Int → Prop where
  | bare {ds : List Char} (h : IsNumeral ds) : Spells ds (digitsValue 0 ds)
  | plus {ds : List Char} (h : IsNumeral ds) : Spells ('+' :: ds) (digitsValue 0 ds)
  | minus {ds : List Char} (h : IsNumeral ds) : Spells ('-' :: ds) (-digitsValue 0 ds)

theorem IsNumeral.isDigit (h : IsNumeral ds) : ∀ c ∈ ds, c.isDigit = true :=
  fun c hc => Coord.isDigit_iff.2 (h.digit c hc)

theorem isNumeral_digits (n : Nat) : IsNumeral (digits n) :=
  ⟨digits_ne_nil n, fun _ hc => Coord.isDigit_iff.1 (isDigit_of_mem_digits hc)⟩

/-- Whether a text is the decimal text of a number. -/
def IsDecimal (cs : List Char) (i : Int) : Prop := cs = (showInt i).toList

instance (cs : List Char) (i : Int) : Decidable (IsDecimal cs i) :=
  inferInstanceAs (Decidable (cs = _))

/-- The decimal text of a number spells it. -/
theorem spells_showInt (i : Int) : Spells (showInt i).toList i := by
  have hnumeral := isNumeral_digits i.natAbs
  have hvalue : digitsValue 0 (digits i.natAbs) = i.natAbs := digitsValue_digits _
  unfold showInt
  split
  · have hneg : -((i.natAbs : Nat) : Int) = i := by omega
    simpa only [hvalue, hneg, String.toList_ofList] using Spells.minus hnumeral
  · have hpos : ((i.natAbs : Nat) : Int) = i := by omega
    simpa only [hvalue, hpos, showNat, String.toList_ofList] using Spells.bare hnumeral

theorem mem_showInt (h : c ∈ (showInt i).toList) : c.isDigit = true ∨ c = '-' := by
  unfold showInt at h
  split at h
  · rw [String.toList_ofList, List.mem_cons] at h
    obtain rfl | h := h
    · exact .inr rfl
    · exact .inl (isDigit_of_mem_digits h)
  · rw [showNat, String.toList_ofList] at h
    exact .inl (isDigit_of_mem_digits h)

/-- A text spells one number at most. -/
theorem Spells.unique (h : Spells cs i) (h' : Spells cs j) : i = j := by
  cases h with
  | bare h =>
    cases h' with
    | bare _ => rfl
    | plus _ => exact absurd (h.isDigit _ List.mem_cons_self) (by decide)
    | minus _ => exact absurd (h.isDigit _ List.mem_cons_self) (by decide)
  | plus h =>
    cases h' with
    | bare h' => exact absurd (h'.isDigit _ List.mem_cons_self) (by decide)
    | plus _ => rfl
  | minus h =>
    cases h' with
    | bare h' => exact absurd (h'.isDigit _ List.mem_cons_self) (by decide)
    | minus _ => rfl

theorem Spells.isDigit_or_sign (h : Spells cs i) :
    ∀ c ∈ cs, c.isDigit = true ∨ c = '+' ∨ c = '-' := by
  intro c hc
  cases h with
  | bare h => exact .inl (h.isDigit c hc)
  | plus h =>
    cases List.mem_cons.1 hc with
    | inl heq => exact .inr (.inl heq)
    | inr hmem => exact .inl (h.isDigit c hmem)
  | minus h =>
    cases List.mem_cons.1 hc with
    | inl heq => exact .inr (.inr heq)
    | inr hmem => exact .inl (h.isDigit c hmem)

theorem isBlank_of_isDigit (h : c.isDigit = true) : isBlank c = false := by
  simp only [Char.isDigit, Bool.and_eq_true, decide_eq_true_eq, ge_iff_le] at h
  have hlow : 48 ≤ c.toNat := UInt32.le_iff_toNat_le.1 h.1
  have hhigh : c.toNat ≤ 57 := UInt32.le_iff_toNat_le.1 h.2
  simp only [isBlank, Bool.or_eq_false_iff, Bool.and_eq_false_imp, decide_eq_true_eq,
    decide_eq_false_iff_not, beq_eq_false_iff_ne]
  omega

theorem Spells.not_isBlank (h : Spells cs i) : ∀ c ∈ cs, isBlank c = false := by
  intro c hc
  obtain hdigit | rfl | rfl := h.isDigit_or_sign c hc
  · exact isBlank_of_isDigit hdigit
  · decide
  · decide

theorem Spells.ne_nil (h : Spells cs i) : cs ≠ [] := by
  cases h with
  | bare h => exact h.ne_nil
  | plus _ | minus _ => exact List.cons_ne_nil _ _

/-! ## Reading -/

theorem readDigits_zero_eq_ok_iff {limit m : Nat} (hne : ds ≠ []) :
    readDigits limit 0 ds = .ok m ↔ IsNumeral ds ∧ digitsValue 0 ds = m ∧ m ≤ limit := by
  rw [readDigits_eq_ok_iff (Nat.zero_le limit)]
  constructor
  · intro ⟨hdigit, hvalue⟩
    exact ⟨⟨hne, fun c hc => Coord.isDigit_iff.1 (hdigit c hc)⟩, hvalue⟩
  · intro ⟨hnumeral, hvalue⟩
    exact ⟨hnumeral.isDigit, hvalue⟩

/-- Digits without a `-` are read up to the largest word. -/
theorem map_readDigits_eq_ok_iff (hne : ds ≠ []) :
    (readDigits (Nat.pow 2 63 - 1) 0 ds).map Int64.ofNat = .ok n ↔
      IsNumeral ds ∧ n.toInt = digitsValue 0 ds := by
  have hpow : Nat.pow 2 63 = 9223372036854775808 := rfl
  constructor
  · intro h
    cases hread : readDigits (Nat.pow 2 63 - 1) 0 ds with
    | error fault =>
      rw [hread] at h
      cases h
    | ok m =>
      obtain ⟨hnumeral, hvalue, hle⟩ := (readDigits_zero_eq_ok_iff hne).1 hread
      rw [hread] at h
      obtain rfl := Except.ok.inj h
      rw [Int64.toInt_ofNat_of_lt (by omega), hvalue]
      exact ⟨hnumeral, rfl⟩
  · intro ⟨hnumeral, hvalue⟩
    have hlt := n.toInt_lt
    have hread : readDigits (Nat.pow 2 63 - 1) 0 ds = .ok (digitsValue 0 ds) :=
      (readDigits_zero_eq_ok_iff hne).2 ⟨hnumeral, rfl, by omega⟩
    have hword : (Int64.ofNat (digitsValue 0 ds)).toInt = n.toInt := by
      rw [Int64.toInt_ofNat_of_lt (by omega), hvalue]
    rw [hread, Except.map, Int64.toInt_inj.1 hword]

/-- Digits behind a `-` are read down to the least word, which has no positive counterpart. -/
theorem readSigned_minus_eq_ok_iff (hne : ds ≠ []) :
    readSigned ('-' :: ds) = .ok n ↔ IsNumeral ds ∧ n.toInt = -digitsValue 0 ds := by
  have hpow : Nat.pow 2 63 = 9223372036854775808 := rfl
  obtain ⟨d, rest, rfl⟩ := List.exists_cons_of_ne_nil hne
  constructor
  · intro h
    cases hread : readDigits (Nat.pow 2 63) 0 (d :: rest) with
    | error fault =>
      simp only [readSigned, hread] at h
      cases fault <;> cases h
    | ok m =>
      obtain ⟨hnumeral, hvalue, hle⟩ := (readDigits_zero_eq_ok_iff hne).1 hread
      simp only [readSigned, hread] at h
      obtain rfl := Except.ok.inj h
      rw [Int64.toInt_ofInt_of_le (by omega) (by omega), hvalue]
      exact ⟨hnumeral, rfl⟩
  · intro h
    obtain ⟨hnumeral, hvalue⟩ := h
    have hle := n.le_toInt
    have hread : readDigits (Nat.pow 2 63) 0 (d :: rest) = .ok (digitsValue 0 (d :: rest)) :=
      (readDigits_zero_eq_ok_iff hne).2 ⟨hnumeral, rfl, by omega⟩
    simp only [readSigned, hread]
    rw [← hvalue, Int64.ofInt_toInt]

/-- A digit is no sign. -/
theorem readSigned_of_isNumeral (h : IsNumeral ds) :
    readSigned ds = (readDigits (Nat.pow 2 63 - 1) 0 ds).map Int64.ofNat := by
  have hplus : '+' ∉ ds := fun hmem => absurd (h.isDigit _ hmem) (by decide)
  have hminus : '-' ∉ ds := fun hmem => absurd (h.isDigit _ hmem) (by decide)
  unfold readSigned
  split
  · exact absurd rfl h.ne_nil
  all_goals simp_all

/-- Exactly the numerals with or without a sign are read whose number is a word. -/
theorem readSigned_eq_ok_iff : readSigned cs = .ok n ↔ Spells cs n.toInt := by
  constructor
  · -- The cases are those of reading: no digits, three times, and the three spellings.
    intro h
    unfold readSigned at h
    split at h
    · cases h
    · cases h
    · cases h
    · rename_i ds hne
      obtain ⟨hnumeral, hvalue⟩ := (map_readDigits_eq_ok_iff hne).1 h
      rw [hvalue]
      exact .plus hnumeral
    · rename_i ds hne
      obtain ⟨hnumeral, hvalue⟩ :=
        (readSigned_minus_eq_ok_iff hne).1 (by simpa [readSigned] using h)
      rw [hvalue]
      exact .minus hnumeral
    · rename_i hne _ _ _ _
      obtain ⟨hnumeral, hvalue⟩ := (map_readDigits_eq_ok_iff hne).1 h
      rw [hvalue]
      exact .bare hnumeral
  · intro h
    generalize hi : n.toInt = i at h
    cases h with
    | minus h => exact (readSigned_minus_eq_ok_iff h.ne_nil).2 ⟨h, hi⟩
    | plus h =>
      rename_i ds
      obtain ⟨d, rest, rfl⟩ := List.exists_cons_of_ne_nil h.ne_nil
      exact (map_readDigits_eq_ok_iff h.ne_nil).2 ⟨h, hi⟩
    | bare h =>
      rw [readSigned_of_isNumeral h]
      exact (map_readDigits_eq_ok_iff h.ne_nil).2 ⟨h, hi⟩

/-- The text of a whole number that is no word is not read as one. -/
theorem readSigned_showInt_eq_error (h : ¬(Int64.minValue.toInt ≤ i ∧ i ≤ Int64.maxValue.toInt)) :
    ∃ fault, readSigned (showInt i).toList = .error fault := by
  cases hread : readSigned (showInt i).toList with
  | error fault => exact ⟨fault, rfl⟩
  | ok n =>
    have heq : n.toInt = i := (readSigned_eq_ok_iff.1 hread).unique (spells_showInt i)
    rw [← heq] at h
    exact absurd ⟨Int64.minValue_le_toInt n, Int64.toInt_le n⟩ h

/-! ## Blanks at the ends -/

/-- A text without blanks has none at its ends. -/
theorem trim_eq_self (h : ∀ c ∈ cs, isBlank c = false) : trim cs = cs := by
  have hdrop : ∀ cs : List Char, (∀ c ∈ cs, isBlank c = false) → cs.dropWhile isBlank = cs := by
    intro cs hcs
    cases cs with
    | nil => rfl
    | cons c cs => rw [List.dropWhile_cons_of_neg (by simp [hcs c List.mem_cons_self])]
  rw [trim, hdrop cs h, hdrop, List.reverse_reverse]
  exact fun c hc => h c (List.mem_reverse.1 hc)

/-- Whether a text is made of blanks. -/
def Blank (cs : List Char) : Prop := ∀ c ∈ cs, isBlank c = true

instance (cs : List Char) : Decidable (Blank cs) := decidable_of_iff _ List.all_eq_true

theorem Blank.not_mem (h : Blank cs) (hc : isBlank c = false) : c ∉ cs := by
  intro hmem
  rw [h c hmem] at hc
  cases hc

theorem Blank.append (hbefore : Blank before) (hafter : Blank after) : Blank (before ++ after) :=
  List.forall_mem_append.2 ⟨hbefore, hafter⟩

theorem trim_blank_append (h : Blank before) (cs : List Char) : trim (before ++ cs) = trim cs := by
  rw [trim, List.dropWhile_append_of_pos h, ← trim]

theorem trim_append_blank (h : Blank after) (cs : List Char) : trim (cs ++ after) = trim cs := by
  have hreverse : ∀ c ∈ after.reverse, isBlank c = true := fun c hc => h c (List.mem_reverse.1 hc)
  rw [trim, trim, List.dropWhile_append]
  split
  · -- Nothing but blanks on either side.
    rename_i hempty
    have hafter : after.dropWhile isBlank = [] := by
      rw [← List.append_nil after, List.dropWhile_append_of_pos h, List.dropWhile_nil]
    rw [hafter, List.isEmpty_iff.1 hempty]
  · rw [List.reverse_append, List.dropWhile_append_of_pos hreverse]

/-- What is trimmed are blanks in front and behind. -/
theorem exists_trim (cs : List Char) :
    ∃ before after, Blank before ∧ Blank after ∧ cs = before ++ trim cs ++ after := by
  refine ⟨cs.takeWhile isBlank, ((cs.dropWhile isBlank).reverse.takeWhile isBlank).reverse,
    fun c hc => List.all_eq_true.1 List.all_takeWhile c hc,
    fun c hc => List.all_eq_true.1 List.all_takeWhile c (List.mem_reverse.1 hc), ?_⟩
  rw [trim, List.append_assoc, ← List.reverse_append, List.takeWhile_append_dropWhile,
    List.reverse_reverse, List.takeWhile_append_dropWhile]

theorem mem_trim (hc : c ∈ cs) (hblank : isBlank c = false) : c ∈ trim cs := by
  obtain ⟨before, after, hbefore, hafter, hcs⟩ := exists_trim cs
  rw [hcs, List.mem_append, List.mem_append] at hc
  obtain (hmem | hmem) | hmem := hc
  · exact absurd hmem (hbefore.not_mem hblank)
  · exact hmem
  · exact absurd hmem (hafter.not_mem hblank)

theorem trim_eq_nil_iff : trim cs = [] ↔ Blank cs := by
  constructor
  · intro h
    obtain ⟨before, after, hbefore, hafter, hcs⟩ := exists_trim cs
    rw [hcs, h, List.append_nil]
    exact hbefore.append hafter
  · intro h
    rw [← List.append_nil cs, trim_blank_append h, trim_nil]

/-- Whether a text spells a number, with blanks before and after it. -/
def Padded (spells : List Char → Int → Prop) (cs : List Char) (i : Int) : Prop :=
  ∃ before item after, Blank before ∧ Blank after ∧ spells item i ∧ cs = before ++ item ++ after

theorem padded_iff : Padded Spells cs i ↔ Spells (trim cs) i := by
  constructor
  · intro ⟨before, item, after, hbefore, hafter, hitem, hcs⟩
    rwa [hcs, trim_append_blank hafter, trim_blank_append hbefore, trim_eq_self hitem.not_isBlank]
  · intro h
    obtain ⟨before, after, hbefore, hafter, hcs⟩ := exists_trim cs
    exact ⟨before, trim cs, after, hbefore, hafter, h, hcs⟩

/-- Exactly the numbers with blanks around them are read after trimming. -/
theorem readSigned_trim_eq_ok_iff : readSigned (trim cs) = .ok n ↔ Padded Spells cs n.toInt := by
  rw [readSigned_eq_ok_iff, padded_iff]

theorem padded_blank_append (h : Blank before) :
    Padded Spells (before ++ cs) i ↔ Padded Spells cs i := by
  rw [padded_iff, padded_iff, trim_blank_append h]

theorem padded_append_blank (h : Blank after) :
    Padded Spells (cs ++ after) i ↔ Padded Spells cs i := by
  rw [padded_iff, padded_iff, trim_append_blank h]

theorem Padded.isBlank_or_digit_or_sign (h : Padded Spells cs i) :
    ∀ c ∈ cs, isBlank c = true ∨ c.isDigit = true ∨ c = '+' ∨ c = '-' := by
  obtain ⟨before, item, after, hbefore, hafter, hitem, rfl⟩ := h
  simp only [List.forall_mem_append]
  exact ⟨⟨fun c hc => .inl (hbefore c hc), fun c hc => .inr (hitem.isDigit_or_sign c hc)⟩,
    fun c hc => .inl (hafter c hc)⟩

theorem Padded.not_blank (h : Padded Spells cs i) : ¬Blank cs := by
  intro hblank
  rw [padded_iff, trim_eq_nil_iff.2 hblank] at h
  exact h.ne_nil rfl

end TableGrid.Text
