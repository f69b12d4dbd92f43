import TableGrid.Content

/-!
# Contents that agree

Contents agree as values do: the two zeros are the same number, and what is not a number agrees
with nothing.  Apart from that agreeing is an equivalence.

## Key results

- `compare_eq_iff`, `float_beq_iff`: when numbers are equal
- `agrees_symm`, `agrees_trans`: agreeing is symmetric and transitive
-/

namespace TableGrid

theorem then_eq_eq_iff {e e' : Int} {m m' : Nat} :
    (compare e e').then (compare m m') = .eq ↔ e = e' ∧ m = m' := by
  rw [Ordering.then_eq_eq, Std.compare_eq_iff_eq, Std.compare_eq_iff_eq]

open Float.Model in
/-- Numbers compare as equal if they are the same, or both of them zero. -/
theorem compare_eq_iff {a b : UnpackedFloat} :
    a.compare b = some .eq ↔
      (∃ s t, a = .zero s ∧ b = .zero t) ∨ (a = b ∧ a ≠ .notANumber) := by
  constructor
  · intro h
    -- Numbers of different kinds or signs are ordered strictly.
    cases a with
    | notANumber => cases h
    | infinity s =>
      cases b with
      | infinity t =>
        refine .inr ⟨?_, by intro hnan; cases hnan⟩
        cases s <;> cases t <;> first | rfl | cases h
      | notANumber => cases h
      | zero t => cases s <;> cases h
      | finite t m e hm => cases s <;> cases h
    | zero s =>
      cases b with
      | infinity t => cases t <;> cases h
      | notANumber => cases h
      | zero t => exact .inl ⟨s, t, rfl, rfl⟩
      | finite t m e hm => cases t <;> cases h
    | finite s m e hm =>
      refine .inr ⟨?_, by intro hnan; cases hnan⟩
      cases b with
      | infinity t => cases s <;> cases t <;> cases h
      | notANumber => cases s <;> cases h
      | zero t => cases s <;> cases h
      | finite t m' e' hm' =>
        cases s <;> cases t
        · obtain ⟨rfl, rfl⟩ := then_eq_eq_iff.1 (Ordering.swap_eq_eq.1 (Option.some.inj h))
          rfl
        · cases h
        · cases h
        · obtain ⟨rfl, rfl⟩ := then_eq_eq_iff.1 (Option.some.inj h)
          rfl
  · rintro (⟨s, t, rfl, rfl⟩ | ⟨rfl, hne⟩)
    · rfl
    · cases a with
      | notANumber => exact absurd rfl hne
      | infinity s => cases s <;> rfl
      | zero s => rfl
      | finite s m e hm =>
        have heq := then_eq_eq_iff.2 ⟨Eq.refl e, Eq.refl m⟩
        cases s
        · exact congrArg (fun order => some order.swap) heq
        · exact congrArg some heq

theorem float_beq_iff {x y : Float} :
    (x == y) = true ↔
      (∃ s t, x.toModel.unpack = .zero s ∧ y.toModel.unpack = .zero t) ∨
        (x.toModel.unpack = y.toModel.unpack ∧ x.toModel.unpack ≠ .notANumber) := by
  rw [← compare_eq_iff]
  show ((x.toModel.unpack.compare y.toModel.unpack) == some .eq) = true ↔ _
  rw [beq_iff_eq]

theorem float_beq_symm {x y : Float} (h : (x == y) = true) : (y == x) = true := by
  rw [float_beq_iff] at h ⊢
  rcases h with ⟨s, t, hx, hy⟩ | ⟨heq, hne⟩
  · exact .inl ⟨t, s, hy, hx⟩
  · exact .inr ⟨heq.symm, heq ▸ hne⟩

theorem float_beq_trans {x y z : Float} (hxy : (x == y) = true) (hyz : (y == z) = true) :
    (x == z) = true := by
  rw [float_beq_iff] at hxy hyz ⊢
  rcases hxy with ⟨s, t, hx, hy⟩ | ⟨heq, hne⟩
  · rcases hyz with ⟨_, u, -, hz⟩ | ⟨heq', -⟩
    · exact .inl ⟨s, u, hx, hz⟩
    · exact .inl ⟨s, t, hx, heq' ▸ hy⟩
  · rw [heq] at hne ⊢
    rcases hyz with ⟨t, u, hy, hz⟩ | ⟨heq', -⟩
    · exact .inl ⟨t, u, hy, hz⟩
    · exact .inr ⟨heq', hne⟩

namespace Content

/-- Contents agree if they are equal numbers, or the same and no numbers. -/
theorem agrees_iff {a b : Content} :
    a.agrees b = true ↔
      (∃ x y, a = .number x ∧ b = .number y ∧ (x == y) = true) ∨ (a = b ∧ ∀ x, a ≠ .number x) := by
  cases a <;> cases b <;> simp [agrees]

theorem agrees_symm {a b : Content} (h : a.agrees b = true) : b.agrees a = true := by
  rw [agrees_iff] at h ⊢
  rcases h with ⟨x, y, ha, hb, hxy⟩ | ⟨heq, hne⟩
  · exact .inl ⟨y, x, hb, ha, float_beq_symm hxy⟩
  · exact .inr ⟨heq.symm, heq ▸ hne⟩

theorem agrees_trans {a b c : Content} (hab : a.agrees b = true) (hbc : b.agrees c = true) :
    a.agrees c = true := by
  rw [agrees_iff] at hab
  rcases hab with ⟨x, y, rfl, rfl, hxy⟩ | ⟨rfl, -⟩
  · rcases agrees_iff.1 hbc with ⟨y', z, hy, rfl, hyz⟩ | ⟨-, hne⟩
    · obtain rfl := Content.number.inj hy
      exact agrees_iff.2 (.inl ⟨x, z, rfl, rfl, float_beq_trans hxy hyz⟩)
    · exact absurd rfl (hne y)
  · exact hbc

end Content

end TableGrid
