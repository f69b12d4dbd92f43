import Mathlib.Data.List.Nodup
import TableGrid.Proofs.List

/-!
# Lists in runs

The owners of the cells of a row or column, in order, repeat: an owner stands at all indices that
its span covers, and nowhere else.  `List.InRuns` says so of a list.  Without its repetitions such a
list still has its items in order, so the item after a run is the next one.

## Key results

- `InRuns.eraseDups_eq`: without repetitions, a run is one item
- `InRuns.getElem?_eraseDups_next`: the item after a run is the next one, and the first one comes
  after the last
- `InRuns.getElem?_eraseDups_previous`: the same backwards
-/

namespace List

variable {α : Type} [DecidableEq α] {xs : List α} {first stop : α → Nat} {a b : α} {i j : Nat}

theorem nodup_eraseDups (xs : List α) : xs.eraseDups.Nodup := by
  match xs with
  | [] => exact nodup_nil
  | a :: xs =>
    rw [eraseDups_cons, nodup_cons, mem_eraseDups, mem_filter]
    exact ⟨fun h => by simp at h, nodup_eraseDups (xs.filter fun b => !b == a)⟩
termination_by xs.length
decreasing_by exact Nat.lt_succ_of_le (length_filter_le _ _)

theorem head?_eraseDups (xs : List α) : xs.eraseDups.head? = xs.head? := by
  cases xs with
  | nil => rfl
  | cons a xs => rw [eraseDups_cons, head?_cons, head?_cons]

/-- Whether each item stands at the indices from its first one to before its stop, and nowhere
    else. -/
def InRuns {α : Type} (xs : List α) (first stop : α → Nat) : Prop :=
  ∀ a ∈ xs, ∀ i, xs[i]? = some a ↔ i < xs.length ∧ first a ≤ i ∧ i < stop a

omit [DecidableEq α] in
/-- A run starts inside of the list. -/
theorem InRuns.getElem?_first (h : xs.InRuns first stop) (ha : a ∈ xs) :
    xs[first a]? = some a := by
  obtain ⟨i, hi⟩ := mem_iff_getElem?.1 ha
  obtain ⟨hlt, hfirst, hstop⟩ := (h a ha i).1 hi
  exact (h a ha (first a)).2 ⟨by omega, by omega, by omega⟩

omit [DecidableEq α] in
/-- No item before a run comes again in or after it. -/
theorem InRuns.ne_of_lt_of_le (h : xs.InRuns first stop) (ha : a ∈ xs) (hi : xs[i]? = some b)
    (hlt : i < first a) (hle : first a ≤ j) : xs[j]? ≠ some b := by
  intro hj
  have hb := mem_of_getElem? hi
  obtain ⟨-, hfirst, -⟩ := (h b hb i).1 hi
  obtain ⟨hlen, -, hstop⟩ := (h b hb j).1 hj
  -- The item would stand at the start of the run too, and be the item of the run.
  have hstart := (h b hb (first a)).2 ⟨by omega, by omega, by omega⟩
  rw [h.getElem?_first ha, Option.some.injEq] at hstart
  rw [hstart] at hlt
  omega

/-- Without repetitions, a run is one item, behind those before it and in front of those after
    it. -/
theorem InRuns.eraseDups_eq (h : xs.InRuns first stop) (ha : a ∈ xs) :
    xs.eraseDups = (xs.take (first a)).eraseDups ++ a :: (xs.drop (stop a)).eraseDups := by
  have hfirst := h.getElem?_first ha
  obtain ⟨hlen, -, hstop⟩ := (h a ha _).1 hfirst
  have hget : xs[first a] = a := (getElem?_eq_some_iff.1 hfirst).2
  have hfresh : (xs.drop (first a)).removeAll (xs.take (first a)) = xs.drop (first a) := by
    rw [removeAll, filter_eq_self]
    intro b hb
    rw [Bool.not_eq_true', ← Bool.not_eq_true, elem_iff]
    intro hb'
    obtain ⟨i, hi, hib⟩ := mem_take_iff_getElem.1 hb'
    obtain ⟨j, hj, hjb⟩ := mem_drop_iff_getElem.1 hb
    exact h.ne_of_lt_of_le ha (getElem?_eq_some_iff.2 ⟨by omega, hib⟩) (by omega)
      (Nat.le_add_right _ j) (getElem?_eq_some_iff.2 ⟨by omega, hjb⟩)
  -- Without the item of the run, what is left is what stands after the run.
  have hrest : (xs.drop (first a + 1)).filter (fun b => !b == a) = xs.drop (stop a) := by
    have hsplit : xs.drop (first a + 1) =
        (xs.drop (first a + 1)).take (stop a - (first a + 1)) ++ xs.drop (stop a) := by
      rw [show xs.drop (stop a) = (xs.drop (first a + 1)).drop (stop a - (first a + 1)) by
        rw [drop_drop]; congr 1; omega, take_append_drop]
    have hrun : ((xs.drop (first a + 1)).take (stop a - (first a + 1))).filter
        (fun b => !b == a) = [] := by
      rw [filter_eq_nil_iff]
      intro b hb
      obtain ⟨i, hi, rfl⟩ := mem_take_iff_getElem.1 hb
      rw [length_drop] at hi
      have hia := (h a ha (first a + 1 + i)).2 ⟨by omega, by omega, by omega⟩
      rw [getElem_drop, (getElem?_eq_some_iff.1 hia).2]
      simp
    have hafter : (xs.drop (stop a)).filter (fun b => !b == a) = xs.drop (stop a) := by
      rw [filter_eq_self]
      intro b hb
      obtain ⟨i, hi, rfl⟩ := mem_drop_iff_getElem.1 hb
      rw [Bool.not_eq_true', beq_eq_false_iff_ne]
      intro heq
      have := (h a ha _).1 (getElem?_eq_some_iff.2 ⟨_, heq⟩)
      omega
    rw [hsplit, filter_append, hrun, hafter, nil_append]
  calc xs.eraseDups
      = (xs.take (first a) ++ xs.drop (first a)).eraseDups := by rw [take_append_drop]
    _ = (xs.take (first a)).eraseDups ++ (xs.drop (first a)).eraseDups := by
      rw [eraseDups_append, hfresh]
    _ = _ := by
      rw [drop_eq_getElem_cons hlen, hget, eraseDups_cons, hrest]

/-- The item after a run is the next one without repetitions, and the first one comes after the
    last. -/
theorem InRuns.getElem?_eraseDups_next (h : xs.InRuns first stop)
    (hj : xs.eraseDups[j]? = some a) :
    xs.eraseDups[(j + 1) % xs.eraseDups.length]? =
      xs[if stop a < xs.length then stop a else 0]? := by
  have ha := mem_eraseDups.1 (mem_of_getElem? hj)
  have heq := h.eraseDups_eq ha
  -- Items do not repeat, so the index is the one behind the items before the run.
  have hindex : j = (xs.take (first a)).eraseDups.length := by
    refine (getElem?_inj (getElem?_eq_some_iff.1 hj).1 (nodup_eraseDups xs)).1 ?_
    rw [hj, heq, getElem?_append_right (Nat.le_refl _), Nat.sub_self, getElem?_cons_zero]
  split
  · rename_i hlt
    have hafter : (xs.drop (stop a)).eraseDups[0]? = xs[stop a]? := by
      rw [← head?_eq_getElem?, head?_eraseDups, head?_drop]
    have hpos : 0 < (xs.drop (stop a)).eraseDups.length := by
      rw [getElem?_eq_getElem hlt] at hafter
      exact (getElem?_eq_some_iff.1 hafter).1
    have hlen : j + 1 < xs.eraseDups.length := by
      rw [heq, length_append, length_cons]
      omega
    rw [Nat.mod_eq_of_lt hlen, heq, getElem?_append_right (by omega), hindex,
      Nat.add_sub_cancel_left, getElem?_cons_succ, hafter]
  · rename_i hge
    have hnil : xs.drop (stop a) = [] := drop_eq_nil_of_le (by omega)
    have hlen : xs.eraseDups.length = j + 1 := by
      rw [heq, length_append, length_cons, hnil, hindex]
      rfl
    rw [hlen, Nat.mod_self, ← head?_eq_getElem?, head?_eraseDups, head?_eq_getElem?]

omit [DecidableEq α] in
/-- In front of a run stands the last item of the run before; the last run is before the first. -/
theorem InRuns.exists_before (h : xs.InRuns first stop) (ha : a ∈ xs) :
    ∃ b, xs[if first a = 0 then xs.length - 1 else first a - 1]? = some b ∧
      (if stop b < xs.length then stop b else 0) = first a := by
  have hfirst := h.getElem?_first ha
  obtain ⟨hlen, -, -⟩ := (h a ha _).1 hfirst
  split
  · rename_i hzero
    have hlast : xs.length - 1 < xs.length := by omega
    have hb := getElem?_eq_getElem hlast
    obtain ⟨-, -, hstop⟩ := (h _ (mem_of_getElem? hb) _).1 hb
    exact ⟨_, hb, by rw [if_neg (by omega), hzero]⟩
  · rename_i hpos
    have hprev : first a - 1 < xs.length := by omega
    have hb := getElem?_eq_getElem hprev
    obtain ⟨-, hfirst', hstop⟩ := (h _ (mem_of_getElem? hb) _).1 hb
    refine ⟨_, hb, ?_⟩
    -- If the run before went on, its item would be the item of this run.
    by_cases hlt : first a < stop xs[first a - 1]
    · have heq := (h _ (mem_of_getElem? hb) (first a)).2 ⟨hlen, by omega, hlt⟩
      rw [hfirst, Option.some.injEq] at heq
      rw [← heq] at hfirst'
      omega
    · rw [if_pos (by omega)]
      omega

/-- The item before a run is the previous one without repetitions, and the last one comes before
    the first. -/
theorem InRuns.getElem?_eraseDups_previous (h : xs.InRuns first stop)
    (hj : xs.eraseDups[j]? = some a) :
    xs.eraseDups[(j + xs.eraseDups.length - 1) % xs.eraseDups.length]? =
      xs[if first a = 0 then xs.length - 1 else first a - 1]? := by
  have ha := mem_eraseDups.1 (mem_of_getElem? hj)
  obtain ⟨b, hb, hnext⟩ := h.exists_before ha
  obtain ⟨i, hi⟩ := mem_iff_getElem?.1 (mem_eraseDups.2 (mem_of_getElem? hb))
  have hlt := (getElem?_eq_some_iff.1 hi).1
  have hlt' := (getElem?_eq_some_iff.1 hj).1
  -- From the item before, the next one is this one.
  have hturn : (i + 1) % xs.eraseDups.length = j := by
    refine (getElem?_inj (Nat.mod_lt _ (by omega)) (nodup_eraseDups xs)).1 ?_
    rw [h.getElem?_eraseDups_next hi, hnext, h.getElem?_first ha, hj]
  have hback : (j + xs.eraseDups.length - 1) % xs.eraseDups.length = i := by
    rcases Nat.lt_or_ge (i + 1) xs.eraseDups.length with hin | hend
    · rw [Nat.mod_eq_of_lt hin] at hturn
      rw [show j + xs.eraseDups.length - 1 = i + xs.eraseDups.length by omega,
        Nat.add_mod_right, Nat.mod_eq_of_lt hlt]
    · rw [show i + 1 = xs.eraseDups.length by omega, Nat.mod_self] at hturn
      rw [show j + xs.eraseDups.length - 1 = i by omega, Nat.mod_eq_of_lt hlt]
  rw [hback, hi, hb]

end List
