import TableGrid.Json.Parser
import TableGrid.Proofs.Decimal.Finite
import TableGrid.Proofs.Json.Canonical

/-!
# What reading gives

All numbers that are read fit, and what is read is nested no deeper than reading allows.

## Key results

- `Numeral.fits_value?`: a written number fits
- `fits_of_readValue`: so does every number in a value, and the value is no deeper than it may be
- `fits_of_parseAs?`: what a text gives fits
-/

namespace TableGrid

theorem Decimal.absorb_le {n : Nat} (h : n ≤ Text.maxWord) (ds : List Nat) :
    (absorb n ds).1 ≤ Text.maxWord := by
  induction ds generalizing n with
  | nil => exact h
  | cons d ds ih =>
    rw [absorb]
    split
    · rename_i hle
      exact ih hle
    · exact h

namespace Json

variable {fuel depth : Nat} {shape : Shape} {s rest : List Char} {j : Json}

/-! ## Numbers -/

theorem Number.isFinite_toFloat {n : Number} (h : n.Fits) : n.toFloat.isFinite = true := by
  cases n with
  | whole i =>
    have hword : -(2 ^ 63 : Int) ≤ i ∧ i ≤ 2 ^ 64 - 1 := h
    exact Decimal.isFinite_ofInt (by omega)
  | binary x => exact h

theorem isFinite_scaled {negative : Bool} {significand : Nat} {e : Int} {x : Float}
    (hle : significand ≤ Text.maxWord) (h : scaled negative significand e = some x) :
    x.isFinite = true := by
  obtain ⟨y, hy, heq⟩ := Option.bind_eq_some_iff.1 h
  have hword : significand < 2 ^ 64 := Nat.lt_of_le_of_lt hle (by decide)
  have hfinite := Decimal.isFinite_scale (Decimal.isFinite_ofNat hword) hy
  obtain rfl := Option.some.inj heq
  split
  · exact Decimal.isFinite_neg hfinite
  · exact hfinite

/-- The value of a written number fits. -/
theorem Numeral.fits_value? {numeral : Numeral} {n : Number} (h : numeral.value? = some n) :
    n.Fits := by
  unfold Numeral.value? at h
  have hhead : (Decimal.absorb 0 numeral.whole).1 ≤ Text.maxWord :=
    Decimal.absorb_le (Nat.zero_le _) _
  generalize Decimal.absorb 0 numeral.whole = absorbed at h hhead
  obtain ⟨head, left⟩ := absorbed
  dsimp only at h hhead
  split at h
  · -- Digits alone are a whole number, if it is a word; below all words it is a binary one.
    split at h
    · obtain rfl := Option.some.inj h
      have hword : head ≤ 2 ^ 64 - 1 := hhead
      show -(2 ^ 63 : Int) ≤ head ∧ (head : Int) ≤ 2 ^ 64 - 1
      omega
    · split at h
      · rename_i hle
        obtain rfl := Option.some.inj h
        have hlow : head ≤ 2 ^ 63 := hle.2
        show -(2 ^ 63 : Int) ≤ -head ∧ -(head : Int) ≤ 2 ^ 64 - 1
        omega
      · obtain rfl := Option.some.inj h
        have hword : head < 2 ^ 64 := Nat.lt_of_le_of_lt hhead (by decide)
        exact Decimal.isFinite_neg (Decimal.isFinite_ofNat hword)
  · -- With a point or an exponent it is what scaling gives, or zero.
    obtain ⟨x, hx, rfl⟩ := Option.map_eq_some_iff.1 h
    show x.isFinite = true
    have hsignificand := Decimal.absorb_le hhead numeral.fraction
    split at hx
    · exact isFinite_scaled hsignificand hx
    · split at hx
      · exact isFinite_scaled hsignificand hx
      · split at hx
        · cases hx
        · obtain rfl := Option.some.inj hx
          split <;> decide +kernel

/-! ## Values -/

/-- Members are a first one, if it is not skipped, and others, if there are any. -/
theorem readMembers_eq_some {members : List (String × Json)}
    (h : readMembers (fuel + 1) depth shape s = some (members, rest)) :
    ∃ member others,
      (member = [] ∨ ∃ name value field t t', member = [(name, value)] ∧
        readValue fuel depth field t = some (value, t')) ∧
      (others = [] ∨ ∃ t, readMembers fuel depth shape t = some (others, rest)) ∧
      members = member ++ others := by
  rw [readMembers] at h
  split at h
  · obtain ⟨⟨text, _⟩, -, h⟩ := Option.bind_eq_some_iff.1 h
    dsimp only at h
    split at h
    · -- The value is read or skipped, and then a comma or a brace comes.
      split at h
      · obtain ⟨⟨member, _⟩, hmember, h⟩ := Option.bind_eq_some_iff.1 h
        obtain ⟨⟨value, t⟩, hvalue, heq⟩ := Option.map_eq_some_iff.1 hmember
        obtain ⟨rfl, -⟩ := Prod.mk.inj heq
        dsimp only at h
        split at h
        · obtain ⟨⟨others, _⟩, hothers, heq⟩ := Option.bind_eq_some_iff.1 h
          obtain ⟨rfl, rfl⟩ := Prod.mk.inj (Option.some.inj heq)
          exact ⟨_, others, .inr ⟨_, value, _, _, t, rfl, hvalue⟩, .inr ⟨_, hothers⟩, rfl⟩
        · obtain ⟨rfl, -⟩ := Prod.mk.inj (Option.some.inj h)
          exact ⟨_, [], .inr ⟨_, value, _, _, t, rfl, hvalue⟩, .inl rfl, rfl⟩
        · cases h
      · obtain ⟨⟨member, _⟩, hmember, h⟩ := Option.bind_eq_some_iff.1 h
        obtain ⟨_, -, heq⟩ := Option.map_eq_some_iff.1 hmember
        obtain ⟨rfl, -⟩ := Prod.mk.inj heq
        dsimp only at h
        split at h
        · obtain ⟨⟨others, _⟩, hothers, heq⟩ := Option.bind_eq_some_iff.1 h
          obtain ⟨rfl, rfl⟩ := Prod.mk.inj (Option.some.inj heq)
          exact ⟨[], others, .inl rfl, .inr ⟨_, hothers⟩, rfl⟩
        · obtain ⟨rfl, -⟩ := Prod.mk.inj (Option.some.inj h)
          exact ⟨[], [], .inl rfl, .inl rfl, rfl⟩
        · cases h
    · cases h
  · cases h

mutual

/-- What is read fits. -/
theorem fits_of_readValue {fuel depth : Nat} {shape : Shape} {s rest : List Char} {j : Json}
    (h : readValue fuel depth shape s = some (j, rest)) : j.Fits depth := by
  match fuel with
  | 0 => cases h
  | fuel + 1 =>
    rw [readValue] at h
    -- The cases are those of the reader: three words, a string, an array, an object, a number.
    split at h
    · obtain ⟨_, -, heq⟩ := Option.map_eq_some_iff.1 h
      obtain ⟨rfl, -⟩ := Prod.mk.inj heq
      exact .null
    · obtain ⟨_, -, heq⟩ := Option.map_eq_some_iff.1 h
      obtain ⟨rfl, -⟩ := Prod.mk.inj heq
      exact .bool true
    · obtain ⟨_, -, heq⟩ := Option.map_eq_some_iff.1 h
      obtain ⟨rfl, -⟩ := Prod.mk.inj heq
      exact .bool false
    · obtain ⟨_, -, heq⟩ := Option.map_eq_some_iff.1 h
      obtain ⟨rfl, -⟩ := Prod.mk.inj heq
      exact .string _
    · split at h
      · cases h
      · split at h
        · obtain ⟨rfl, -⟩ := Prod.mk.inj (Option.some.inj h)
          exact .array (List.forall_mem_nil _)
        · obtain ⟨⟨items, _⟩, hread, heq⟩ := Option.map_eq_some_iff.1 h
          obtain ⟨rfl, -⟩ := Prod.mk.inj heq
          exact .array (fits_of_readItems hread)
    · split at h
      · cases h
      · split at h
        · obtain ⟨rfl, -⟩ := Prod.mk.inj (Option.some.inj h)
          exact .object (List.forall_mem_nil _)
        · obtain ⟨⟨members, _⟩, hread, heq⟩ := Option.map_eq_some_iff.1 h
          obtain ⟨rfl, -⟩ := Prod.mk.inj heq
          exact .object (fits_of_readMembers hread)
    · obtain ⟨⟨numeral, _⟩, -, h⟩ := Option.bind_eq_some_iff.1 h
      obtain ⟨n, hn, heq⟩ := Option.bind_eq_some_iff.1 h
      obtain ⟨rfl, -⟩ := Prod.mk.inj (Option.some.inj heq)
      exact .number (Numeral.fits_value? hn)

theorem fits_of_readItems {fuel depth : Nat} {shape : Shape} {s rest : List Char}
    {items : List Json}
    (h : readItems fuel depth shape s = some (items, rest)) : ∀ j ∈ items, j.Fits depth := by
  match fuel with
  | 0 => cases h
  | fuel + 1 =>
    rw [readItems] at h
    obtain ⟨⟨item, _⟩, hitem, h⟩ := Option.bind_eq_some_iff.1 h
    have hfits := fits_of_readValue hitem
    dsimp only at h
    split at h
    · obtain ⟨⟨items, _⟩, hitems, heq⟩ := Option.bind_eq_some_iff.1 h
      obtain ⟨rfl, -⟩ := Prod.mk.inj (Option.some.inj heq)
      exact List.forall_mem_cons.2 ⟨hfits, fits_of_readItems hitems⟩
    · obtain ⟨rfl, -⟩ := Prod.mk.inj (Option.some.inj h)
      exact List.forall_mem_singleton.2 hfits
    · cases h

theorem fits_of_readMembers {fuel depth : Nat} {shape : Shape} {s rest : List Char}
    {members : List (String × Json)} (h : readMembers fuel depth shape s = some (members, rest)) :
    ∀ m ∈ members, m.2.Fits depth := by
  match fuel with
  | 0 => cases h
  | fuel + 1 =>
    obtain ⟨member, others, hmember, hothers, rfl⟩ := readMembers_eq_some h
    refine List.forall_mem_append.2 ⟨?_, ?_⟩
    · rcases hmember with rfl | ⟨name, value, field, t, t', rfl, hvalue⟩
      · exact List.forall_mem_nil _
      · exact List.forall_mem_singleton.2 (fits_of_readValue hvalue)
    · rcases hothers with rfl | ⟨t, hothers⟩
      · exact List.forall_mem_nil _
      · exact fits_of_readMembers hothers

end

theorem fits_of_parseAs? {text : String} (h : parseAs? shape text = some j) : j.Fits maxDepth := by
  unfold parseAs? at h
  dsimp only at h
  split at h
  · rename_i value rest hread
    split at h
    · obtain rfl := Option.some.inj h
      exact fits_of_readValue hread
    · cases h
  · cases h

end Json

end TableGrid
