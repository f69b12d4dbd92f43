import Std.Data.ExtTreeMap

/-!
# List lemmas

Facts about folds, lists of options, separators and keys that do not depend on tables.
-/

namespace List

/-! ## Folds -/

/-- An invariant indexed by the number of rounds carries over a fold over a range. -/
theorem foldl_range_induction {β : Type} {f : β → Nat → β} {init : β} (P : Nat → β → Prop)
    (n : Nat) (h0 : P 0 init) (hstep : ∀ i s, i < n → P i s → P (i + 1) (f s i)) :
    P n ((range n).foldl f init) := by
  induction n with
  | zero => exact h0
  | succ n ih =>
    rw [range_succ, foldl_append, foldl_cons, foldl_nil]
    exact hstep n _ (by omega) (ih fun i s hi => hstep i s (by omega))

/-- A fold by `max` is bounded by whatever bounds its start and all its items. -/
theorem foldl_max_le_iff {α : Type} {f : α → Nat} {l : List α} {init n : Nat} :
    l.foldl (fun m a => max m (f a)) init ≤ n ↔ init ≤ n ∧ ∀ a ∈ l, f a ≤ n := by
  induction l generalizing init with
  | nil => simp
  | cons a l ih =>
    rw [foldl_cons, ih, Nat.max_le, and_assoc]
    simp

/-! ## Numbered lists -/

/-- Of a numbered list, one number picks at most one item. -/
theorem filter_zipIdx {α : Type} (l : List α) (i : Nat) :
    l.zipIdx.filter (fun a => a.2 = i) = (l[i]?.map fun a => (a, i)).toList := by
  -- The induction needs lists that are numbered from any number on.
  suffices h : ∀ k i, (l.zipIdx k).filter (fun a => a.2 = i + k) =
      (l[i]?.map fun a => (a, i + k)).toList from h 0 i
  induction l with
  | nil => simp
  | cons a l ih =>
    intro k i
    rw [zipIdx_cons, filter_cons]
    cases i with
    | zero =>
      have hrest : (l.zipIdx (k + 1)).filter (fun a => a.2 = 0 + k) = [] := by
        rw [filter_eq_nil_iff]
        rintro ⟨b, j⟩ hmem
        have := le_snd_of_mem_zipIdx hmem
        simp only [decide_eq_true_eq]
        omega
      rw [if_pos (by simp), hrest]
      simp
    | succ i =>
      rw [if_neg (by simp), getElem?_cons_succ, show i + 1 + k = i + (k + 1) by omega, ih]

/-- Items that contribute nothing may be dropped. -/
theorem flatMap_filter_of_nil {α β : Type} {l : List α} {g : α → List β} {f : α → Bool}
    (h : ∀ a, f a = false → g a = []) : (l.filter f).flatMap g = l.flatMap g := by
  induction l with
  | nil => rfl
  | cons a l ih =>
    rw [filter_cons, flatMap_cons]
    split
    · rw [flatMap_cons, ih]
    · rename_i hf
      rw [h a (Bool.eq_false_iff.2 hf), ih, nil_append]

/-! ## Lists of options -/

theorem mapM_eq_none_iff {α β : Type} {f : α → Option β} {l : List α} :
    l.mapM f = none ↔ ∃ a ∈ l, f a = none := by
  induction l with
  | nil => simp
  | cons a l ih =>
    simp only [mem_cons, exists_eq_or_imp, ← ih, mapM_cons]
    cases f a with
    | none => simp
    | some b => cases l.mapM f <;> simp

theorem exists_mem_of_mapM_eq_some {α β : Type} {f : α → Option β} {l : List α} {bs : List β}
    (h : l.mapM f = some bs) : ∀ b ∈ bs, ∃ a ∈ l, f a = some b := by
  induction l generalizing bs with
  | nil =>
    obtain rfl := Option.some.inj h
    exact forall_mem_nil _
  | cons a l ih =>
    rw [mapM_cons] at h
    obtain ⟨b, hb, h⟩ := Option.bind_eq_some_iff.1 h
    obtain ⟨bs, hbs, h⟩ := Option.bind_eq_some_iff.1 h
    obtain rfl := Option.some.inj h
    rw [forall_mem_cons]
    refine ⟨⟨a, mem_cons_self, hb⟩, fun b hb => ?_⟩
    obtain ⟨a', ha', heq⟩ := ih hbs b hb
    exact ⟨a', mem_cons_of_mem _ ha', heq⟩

theorem mapM_map_eq_some {α β γ : Type} {encode : α → γ} {decode : γ → Option β} {f : α → β}
    {l : List α} (h : ∀ a ∈ l, decode (encode a) = some (f a)) :
    (l.map encode).mapM decode = some (l.map f) := by
  induction l with
  | nil => rfl
  | cons a l ih =>
    rw [forall_mem_cons] at h
    rw [map_cons, mapM_cons, h.1, ih h.2]
    rfl

/-! ## Lists with separators -/

theorem mem_intercalate_of_mem {α : Type} {sep a : α} {l : List α} {ls : List (List α)}
    (hl : l ∈ ls) (ha : a ∈ l) : a ∈ [sep].intercalate ls := by
  induction ls with
  | nil => cases hl
  | cons l' ls ih =>
    cases ls with
    | nil =>
      obtain rfl := mem_singleton.1 hl
      rwa [intercalate_singleton]
    | cons l'' ls =>
      rw [intercalate_cons_cons]
      rcases mem_cons.1 hl with rfl | hl
      · simp [ha]
      · exact mem_append_right _ (ih hl)

theorem exists_mem_of_mem_intercalate {α : Type} {sep a : α} {ls : List (List α)}
    (ha : a ∈ [sep].intercalate ls) (hne : a ≠ sep) : ∃ l ∈ ls, a ∈ l := by
  induction ls with
  | nil => cases ha
  | cons l ls ih =>
    cases ls with
    | nil =>
      rw [intercalate_singleton] at ha
      exact ⟨l, mem_singleton_self l, ha⟩
    | cons l' ls =>
      rw [intercalate_cons_cons, mem_append, mem_append] at ha
      rcases ha with (ha | ha) | ha
      · exact ⟨l, mem_cons_self, ha⟩
      · exact absurd (mem_singleton.1 ha) hne
      · obtain ⟨l'', hmem, ha⟩ := ih ha
        exact ⟨l'', mem_cons_of_mem _ hmem, ha⟩

/-! ## Lists with keys -/

/-- Where no key is repeated, looking a key up finds its item. -/
theorem lookup_eq_some_iff_mem {κ β : Type} [BEq κ] [LawfulBEq κ] {l : List (κ × β)} {k : κ} {v : β}
    (h : (l.map Prod.fst).Nodup) : l.lookup k = some v ↔ (k, v) ∈ l := by
  induction l with
  | nil => simp
  | cons a l ih =>
    obtain ⟨k', v'⟩ := a
    rw [map_cons, nodup_cons] at h
    rw [lookup_cons, mem_cons, Prod.mk.injEq]
    by_cases heq : k = k'
    · subst heq
      have hout : (k, v) ∉ l := fun hmem => h.1 (mem_map.2 ⟨_, hmem, rfl⟩)
      simp [hout, eq_comm]
    · rw [beq_eq_false_iff_ne.2 heq]
      simp [heq, ih h.2]


/-- In a list sorted by key, the last key that satisfies a predicate ends the filtered list. -/
theorem filter_eq_append_of_last {κ β : Type} [Ord κ] [Std.TransOrd κ] [DecidableEq κ]
    {l : List (κ × β)} (hs : l.Pairwise fun a b => compare a.1 b.1 = .lt) {k : κ} {v : β}
    (hmem : (k, v) ∈ l) {f : κ → Bool} (hf : f k = true)
    (hlast : ∀ k', f k' = true → k' = k ∨ compare k' k = .lt) :
    l.filter (fun a => f a.1) =
      (l.filter fun a => a.1 ≠ k).filter (fun a => f a.1) ++ [(k, v)] := by
  obtain ⟨before, after, rfl⟩ := append_of_mem hmem
  rw [pairwise_append, pairwise_cons] at hs
  obtain ⟨-, ⟨hafter, -⟩, hbefore⟩ := hs
  -- All keys before `k` are smaller, hence others.
  have hb : before.filter (fun a => a.1 ≠ k) = before := by
    rw [filter_eq_self]
    intro a ha
    have hlt : compare a.1 k = .lt := hbefore a ha (k, v) (by simp)
    rw [decide_eq_true_eq]
    rintro rfl
    rw [Std.ReflOrd.compare_self] at hlt
    cases hlt
  -- What comes after `k` is larger and therefore fails the predicate.
  have ha : after.filter (fun a => f a.1) = [] := by
    rw [filter_eq_nil_iff]
    intro a ha hfa
    have hgt : compare k a.1 = .lt := hafter a ha
    rcases hlast a.1 hfa with heq | hlt
    · rw [heq, Std.ReflOrd.compare_self] at hgt
      cases hgt
    · exact Std.OrientedCmp.not_lt_of_lt hgt hlt
  have ha' : (after.filter fun a => a.1 ≠ k).filter (fun a => f a.1) = [] := by
    rw [filter_eq_nil_iff] at ha ⊢
    intro a hmem
    exact ha a (mem_filter.1 hmem).1
  have hk : ((k, v) :: after).filter (fun a => f a.1) = [(k, v)] := by
    rw [filter_cons, if_pos hf, ha]
  have hk' : ((k, v) :: after).filter (fun a => a.1 ≠ k) = after.filter fun a => a.1 ≠ k := by
    rw [filter_cons, if_neg (by simp)]
  -- Both lists have the same items before `k`, and none after it.
  rw [filter_append, filter_append, filter_append, hb, hk, hk', ha', append_nil]

end List
