import Mathlib.Data.Option.Basic
import TableGrid.Json.Printer
import TableGrid.Json.Token
import TableGrid.Proofs.Coord.Address
import TableGrid.Proofs.Json.Canonical

/-!
# Tokens that are written read back

What is written of a string or a whole number is read as that string or number, whatever comes
behind it.  Of a number this is only so if what comes behind it does not continue the number.

## Key results

- `readString_quote`: strings
- `scanNumeral_append`: a number is scanned up to where it ends
- `readsBack_whole`: whole numbers
-/

namespace TableGrid

open Text (digits digit? readDigits maxWord)

theorem Decimal.absorb_of_readDigits {value n : Nat} {s : List Char}
    (h : readDigits maxWord value s = .ok n) :
    absorb value (Json.digitValues s) = (n, []) := by
  induction s generalizing value with
  | nil =>
    obtain rfl := Except.ok.inj h
    rfl
  | cons c s ih =>
    rw [readDigits] at h
    split at h
    · cases h
    · rename_i d hd
      split at h
      · rename_i hle
        rw [Json.digitValues, List.filterMap_cons, hd]
        dsimp only
        rw [absorb, if_pos hle]
        exact ih h
      · cases h

namespace Json

variable {s rest r ds : List Char} {c : Char}

/-! ## Blanks -/

theorem skipSpace_append (h : ∀ c ∈ s, isSpace c = true) (rest : List Char) :
    skipSpace (s ++ rest) = skipSpace rest :=
  List.dropWhile_append_of_pos h

theorem skipSpace_cons (h : isSpace c = false) (rest : List Char) :
    skipSpace (c :: rest) = c :: rest :=
  List.dropWhile_cons_of_neg (by rw [h]; exact Bool.false_ne_true)

theorem skipSpace_newLine (depth : Nat) (rest : List Char) :
    skipSpace ((newLine depth).toList ++ rest) = skipSpace rest := by
  refine skipSpace_append ?_ rest
  intro c hc
  rw [newLine, String.toList_ofList, List.mem_cons] at hc
  rcases hc with rfl | hc
  · rfl
  · rw [List.eq_of_mem_replicate hc]
    rfl

/-! ## Strings -/

theorem hexValue?_hexDigit {n : Nat} (h : n < 16) : hexValue? (hexDigit n) = some n := by
  have hall : ∀ n < 16, hexValue? (hexDigit n) = some n := by decide
  exact hall n h

/-- A control character is written as its number. -/
theorem readString_control (hc : c.toNat < 0x20) (rest : List Char) :
    readString ('\\' :: 'u' :: '0' :: '0' :: hexDigit (c.toNat / 16) :: hexDigit (c.toNat % 16) ::
      rest) = (readString rest).map fun p => (c :: p.1, p.2) := by
  have hunit : codeUnit? '0' '0' (hexDigit (c.toNat / 16)) (hexDigit (c.toNat % 16)) =
      some c.toNat := by
    have hzero : hexValue? '0' = some 0 := by decide
    rw [codeUnit?, hzero, hexValue?_hexDigit (by omega), hexValue?_hexDigit (by omega)]
    show some (0 * 4096 + 0 * 256 + c.toNat / 16 * 16 + c.toNat % 16) = _
    congr 1
    omega
  rw [readString, hunit]
  show (if 0xDC00 ≤ c.toNat ∧ c.toNat ≤ 0xDFFF then _ else if 0xD800 ≤ c.toNat ∧ c.toNat ≤ 0xDBFF
    then _ else (readString rest).bind fun p => some (Char.ofNat c.toNat :: p.1, p.2)) = _
  rw [if_neg (by omega), if_neg (by omega), Char.ofNat_toNat]
  cases readString rest <;> rfl

/-- A character that is not escaped is read as itself. -/
theorem readString_plain (hquote : c ≠ '"') (hback : c ≠ '\\') (hc : 0x20 ≤ c.toNat)
    (rest : List Char) :
    readString (c :: rest) = (readString rest).map fun p => (c :: p.1, p.2) := by
  rw [readString.eq_def]
  split
  · contradiction
  · rename_i heq
    exact absurd (List.cons.inj heq).1 hquote
  · rename_i heq
    exact absurd (List.cons.inj heq).1 hback
  · rename_i heq
    exact absurd (List.cons.inj heq).1 hback
  · rename_i heq
    obtain ⟨rfl, rfl⟩ := List.cons.inj heq
    rw [guard, if_pos ⟨hc, hback⟩]
    cases readString rest <;> rfl

theorem readString_escape (c : Char) (rest : List Char) :
    readString (escape c ++ rest) = (readString rest).map fun p => (c :: p.1, p.2) := by
  -- What stands for `c` behind a backslash.
  have hshort (e : Char) (he : e ≠ 'u') (hc : unescape? e = some c) :
      readString ('\\' :: e :: rest) = (readString rest).map fun p => (c :: p.1, p.2) := by
    rw [readString]
    · rw [hc]
      cases readString rest <;> rfl
    · rintro a b c d rest rfl -
      exact he rfl
  unfold escape
  split
  · rename_i hc
    exact hshort '"' (by decide) (by rw [hc]; rfl)
  split
  · rename_i hc
    exact hshort '\\' (by decide) (by rw [hc]; rfl)
  split
  · rename_i hc
    exact hshort 'b' (by decide) (by rw [hc]; rfl)
  split
  · rename_i hc
    exact hshort 't' (by decide) (by rw [hc]; rfl)
  split
  · rename_i hc
    exact hshort 'n' (by decide) (by rw [hc]; rfl)
  split
  · rename_i hc
    exact hshort 'f' (by decide) (by rw [hc]; rfl)
  split
  · rename_i hc
    exact hshort 'r' (by decide) (by rw [hc]; rfl)
  split
  · rename_i hcontrol
    exact readString_control hcontrol rest
  · rename_i hquote hback _ _ _ _ _ hcontrol
    exact readString_plain hquote hback (Nat.le_of_not_lt hcontrol) rest

theorem readString_flatMap_escape (s rest : List Char) :
    readString (s.flatMap escape ++ '"' :: rest) = some (s, rest) := by
  induction s with
  | nil => rfl
  | cons c s ih =>
    rw [List.flatMap_cons, List.append_assoc, readString_escape, ih]
    rfl

theorem readString_quote (text : String) (rest : List Char) :
    ∃ s, (quote text).toList ++ rest = '"' :: s ∧ readString s = some (text.toList, rest) := by
  refine ⟨text.toList.flatMap escape ++ '"' :: rest, ?_, readString_flatMap_escape _ _⟩
  rw [quote, String.toList_ofList, List.append_assoc]
  rfl

/-! ## Numbers -/

/-- Whether a text does not continue a number that stands before it. -/
def Ends (s : List Char) : Prop :=
  ∀ c ∈ s.head?, c.isDigit = false ∧ c ≠ '.' ∧ c ≠ 'e' ∧ c ≠ 'E'

/-- A text begins as its first part does, unless that is empty and it begins as the second does. -/
theorem exists_cons_of_append_eq_cons {t : List Char} (h : s ++ rest = c :: t)
    (hc : c ∉ rest.head?) : ∃ s', s = c :: s' := by
  cases s with
  | nil =>
    obtain rfl : rest = c :: t := h
    exact absurd rfl hc
  | cons c' s => exact ⟨s, congrArg (· :: s) (List.cons.inj h).1⟩

theorem spanDigits_append (h : Ends rest) (s : List Char) :
    spanDigits (s ++ rest) = ((spanDigits s).1, (spanDigits s).2 ++ rest) := by
  unfold spanDigits
  rw [List.span_eq_takeWhile_dropWhile, List.span_eq_takeWhile_dropWhile]
  induction s with
  | nil =>
    cases rest with
    | nil => rfl
    | cons c rest =>
      have hc := (h c rfl).1
      simp [hc]
  | cons c s ih =>
    obtain ⟨htake, hdrop⟩ := Prod.mk.inj ih
    by_cases hc : c.isDigit = true
    · simp [hc, htake, hdrop]
    · simp [hc]

theorem spanDigits_of_forall (h : ∀ c ∈ s, c.isDigit = true) : spanDigits s = (s, []) := by
  induction s with
  | nil => rfl
  | cons c s ih =>
    rw [List.forall_mem_cons] at h
    have hrest := ih h.2
    unfold spanDigits at hrest ⊢
    rw [List.span_eq_takeWhile_dropWhile] at hrest ⊢
    obtain ⟨htake, hdrop⟩ := Prod.mk.inj hrest
    rw [List.takeWhile_cons_of_pos h.1, List.dropWhile_cons_of_pos h.1, htake, hdrop]

theorem scanExponentDigits_append {negative : Bool} {e : Bool × List Char}
    (h : scanExponentDigits negative s = some (e, r)) (hrest : Ends rest) :
    scanExponentDigits negative (s ++ rest) = some (e, r ++ rest) := by
  unfold scanExponentDigits at h ⊢
  rw [spanDigits_append hrest]
  split at h
  rename_i ds t heq
  rw [heq]
  split at h
  · cases h
  · rename_i hds
    obtain ⟨rfl, rfl⟩ := Prod.mk.inj (Option.some.inj h)
    exact if_neg hds

theorem scanExponent_append {e : Bool × List Char} (h : scanExponent s = some (e, r))
    (hrest : Ends rest) : scanExponent (s ++ rest) = some (e, r ++ rest) := by
  unfold scanExponent at h
  split at h
  · exact scanExponentDigits_append h hrest
  · exact scanExponentDigits_append h hrest
  · rename_i hplus hminus
    cases s with
    | nil => cases h
    | cons c t =>
      -- There is a first character already, and it is no sign.
      rw [← scanExponentDigits_append h hrest]
      unfold scanExponent
      split
      · rename_i heq
        exact absurd (congrArg (· :: t) (List.cons.inj heq).1) (hplus t)
      · rename_i heq
        exact absurd (congrArg (· :: t) (List.cons.inj heq).1) (hminus t)
      · rfl

theorem scanFraction_append {point : Bool} {ds : List Char}
    (h : scanFraction s = some (point, ds, r)) (hrest : Ends rest) :
    scanFraction (s ++ rest) = some (point, ds, r ++ rest) := by
  unfold scanFraction at h
  split at h
  · rename_i t
    show (if (spanDigits (t ++ rest)).1.isEmpty then none
      else some (true, spanDigits (t ++ rest))) = _
    rw [spanDigits_append hrest]
    split at h
    rename_i ds t heq
    rw [heq]
    split at h
    · cases h
    · rename_i hds
      simp only [Option.some.injEq, Prod.mk.injEq] at h
      obtain ⟨rfl, rfl, rfl⟩ := h
      exact if_neg hds
  · rename_i hpoint
    simp only [Option.some.injEq, Prod.mk.injEq] at h
    obtain ⟨rfl, rfl, rfl⟩ := h
    unfold scanFraction
    split
    · rename_i heq
      obtain ⟨s, rfl⟩ := exists_cons_of_append_eq_cons heq fun hc => (hrest '.' hc).2.1 rfl
      exact absurd rfl (hpoint s)
    · rfl

theorem scanPower_append {e : Option (Bool × List Char)} (h : scanPower s = some (e, r))
    (hrest : Ends rest) : scanPower (s ++ rest) = some (e, r ++ rest) := by
  unfold scanPower at h
  split at h
  · obtain ⟨⟨e, r⟩, hexponent, heq⟩ := Option.map_eq_some_iff.1 h
    obtain ⟨rfl, rfl⟩ := Prod.mk.inj heq
    exact Option.map_eq_some_iff.2 ⟨_, scanExponent_append hexponent hrest, rfl⟩
  · obtain ⟨⟨e, r⟩, hexponent, heq⟩ := Option.map_eq_some_iff.1 h
    obtain ⟨rfl, rfl⟩ := Prod.mk.inj heq
    exact Option.map_eq_some_iff.2 ⟨_, scanExponent_append hexponent hrest, rfl⟩
  · rename_i hlower hupper
    obtain ⟨rfl, rfl⟩ := Prod.mk.inj (Option.some.inj h)
    unfold scanPower
    split
    · rename_i heq
      obtain ⟨s, rfl⟩ := exists_cons_of_append_eq_cons heq fun hc => (hrest 'e' hc).2.2.1 rfl
      exact absurd rfl (hlower s)
    · rename_i heq
      obtain ⟨s, rfl⟩ := exists_cons_of_append_eq_cons heq fun hc => (hrest 'E' hc).2.2.2 rfl
      exact absurd rfl (hupper s)
    · rfl

theorem scanUnsigned_append {negative : Bool} {n : Numeral}
    (h : scanUnsigned negative s = some (n, r)) (hrest : Ends rest) :
    scanUnsigned negative (s ++ rest) = some (n, r ++ rest) := by
  unfold scanUnsigned at h ⊢
  rw [spanDigits_append hrest]
  rcases heq : spanDigits s with ⟨whole, t⟩
  rw [heq] at h
  obtain ⟨_, hguard, h⟩ := Option.bind_eq_some_iff.1 h
  obtain ⟨⟨point, ds, t⟩, hfraction, h⟩ := Option.bind_eq_some_iff.1 h
  obtain ⟨⟨e, t⟩, hpower, h⟩ := Option.bind_eq_some_iff.1 h
  obtain ⟨rfl, rfl⟩ := Prod.mk.inj (Option.some.inj h)
  refine Option.bind_eq_some_iff.2 ⟨_, hguard, ?_⟩
  refine Option.bind_eq_some_iff.2 ⟨_, scanFraction_append hfraction hrest, ?_⟩
  exact Option.bind_eq_some_iff.2 ⟨_, scanPower_append hpower hrest, rfl⟩

/-- A number is scanned up to where it ends. -/
theorem scanNumeral_append {n : Numeral} (h : scanNumeral s = some (n, r)) (hrest : Ends rest) :
    scanNumeral (s ++ rest) = some (n, r ++ rest) := by
  unfold scanNumeral at h
  split at h
  · exact scanUnsigned_append h hrest
  · rename_i hminus
    cases s with
    | nil => cases h
    | cons c t =>
      rw [← scanUnsigned_append h hrest]
      unfold scanNumeral
      split
      · rename_i heq
        exact absurd (congrArg (· :: t) (List.cons.inj heq).1) (hminus t)
      · rfl

/-- A number starts with a sign or a digit. -/
theorem exists_cons_of_scanNumeral {n : Numeral} (h : scanNumeral s = some (n, r)) :
    ∃ c t, s = c :: t ∧ (c = '-' ∨ c.isDigit = true) := by
  unfold scanNumeral at h
  split at h
  · exact ⟨_, _, rfl, .inl rfl⟩
  · cases s with
    | nil => cases h
    | cons c t =>
      refine ⟨c, t, rfl, .inr ?_⟩
      -- Otherwise there would be no digits to scan.
      by_contra hc
      have hspan : (spanDigits (c :: t)).1 = [] := by
        unfold spanDigits
        rw [List.span_eq_takeWhile_dropWhile, List.takeWhile_cons_of_neg hc]
      unfold scanUnsigned at h
      split at h
      rename_i heq
      rw [heq] at hspan
      obtain rfl : _ = [] := hspan
      cases h

/-! ### Numbers that are written -/

/-- The number that is read from the text of a number. -/
def Number.reread? (n : Number) : Option Number :=
  match scanNumeral n.text.toList with
  | some (numeral, []) => numeral.value?
  | _ => none

/-- Whether the text of a number is read as the number. -/
def Number.ReadsBack (n : Number) : Prop := n.reread? = some n

instance (n : Number) : Decidable n.ReadsBack := inferInstanceAs (Decidable (_ = _))

theorem Number.readsBack_iff {n : Number} :
    n.ReadsBack ↔
      ∃ numeral, scanNumeral n.text.toList = some (numeral, []) ∧ numeral.value? = some n := by
  unfold ReadsBack reread?
  constructor
  · intro h
    split at h
    · exact ⟨_, ‹_›, h⟩
    · cases h
  · rintro ⟨numeral, hscan, hvalue⟩
    rw [hscan]
    exact hvalue

theorem scanUnsigned_digits (negative : Bool) (n : Nat) :
    scanUnsigned negative (digits n) =
      some (⟨negative, digitValues (digits n), [], false, none⟩, []) := by
  have hguard : (!(digits n).isEmpty &&
      ((digits n).length == 1 || (digits n).head? != some '0')) = true := by
    rcases Nat.eq_zero_or_pos n with rfl | hpos
    · rfl
    · obtain ⟨c, cs, hdigits, hc⟩ := Text.digits_eq_cons hpos
      have hne : c ≠ '0' := fun heq => absurd hc (by rw [heq]; decide)
      simp [hdigits, hne]
  unfold scanUnsigned
  rw [spanDigits_of_forall fun c => Text.isDigit_of_mem_digits]
  show (if _ then some () else none).bind _ = _
  rw [if_pos hguard]
  rfl

theorem value?_digits {n : Nat} (h : n ≤ maxWord) (negative : Bool) :
    (Numeral.mk negative (digitValues (digits n)) [] false none).value? =
      if !negative then some (.whole n)
      else if 0 < n ∧ n ≤ Nat.pow 2 63 then some (.whole (-n))
      else some (.binary (-(Float.ofNat n))) := by
  unfold Numeral.value?
  rw [Decimal.absorb_of_readDigits (Text.readDigits_digits h)]
  rfl

theorem scanNumeral_digits (n : Nat) :
    scanNumeral (digits n) = some (⟨false, digitValues (digits n), [], false, none⟩, []) := by
  rw [← scanUnsigned_digits]
  unfold scanNumeral
  split
  · rename_i t heq
    have hminus : '-' ∈ digits n := by
      rw [heq]
      exact List.mem_cons_self
    exact absurd (Text.isDigit_of_mem_digits hminus) (by decide)
  · rfl

/-- A whole number of 64 bits reads back. -/
theorem readsBack_whole {n : Int} (h : (Number.whole n).Fits) : (Number.whole n).ReadsBack := by
  have hpow : Nat.pow 2 63 = 9223372036854775808 := rfl
  have hmax : maxWord = 18446744073709551615 := rfl
  have hbounds : -(Nat.pow 2 63 : Int) ≤ n ∧ n ≤ maxWord := h
  have hword : n.natAbs ≤ maxWord := by omega
  rw [Number.readsBack_iff, Number.text, Text.showInt]
  split
  · rename_i hneg
    refine ⟨⟨true, digitValues (digits n.natAbs), [], false, none⟩, ?_, ?_⟩
    · rw [String.toList_ofList]
      exact scanUnsigned_digits true _
    · have habs : -(n.natAbs : Int) = n := by omega
      rw [value?_digits hword, if_neg (by decide), if_pos (by omega), habs]
  · rename_i hpos
    refine ⟨⟨false, digitValues (digits n.natAbs), [], false, none⟩, ?_, ?_⟩
    · rw [Text.showNat, String.toList_ofList]
      exact scanNumeral_digits _
    · have habs : (n.natAbs : Int) = n := by omega
      rw [value?_digits hword, if_pos (by decide), habs]

end Json

end TableGrid
