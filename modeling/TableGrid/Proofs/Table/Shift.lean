import TableGrid.Table.Reshape

/-!
# Where cells go

A change of shape moves indices, and the items of a list of rows or cells move the same way.
`Reshape.origin?` says where a cell comes from; the cells of an inserted row or column come from
nowhere.

## Key results

- `move?_inj`: no two cells go to the same place
- `origin?_eq_some_iff`: cells come from where they would go
- `origin?_bind_comm`: changes of rows and of columns move cells independently
- `getElem?_insertIdx_indexAfterInsert`, `getElem?_eraseIdx_of_indexAfterRemove?`: items of a list
  go where their index goes
-/

namespace TableGrid

namespace Reshape

variable {α : Type} {r : Reshape} {i j k : Nat} {p p' q : Coord}

/-! ## Where cells go -/

theorem indexAfterInsert_inj (h : indexAfterInsert i j = indexAfterInsert i k) : j = k := by
  unfold indexAfterInsert at h
  split at h <;> split at h <;> omega

/-- An index that stays or moves back comes from one place only. -/
theorem indexAfterRemove?_eq_some_iff :
    indexAfterRemove? i j = some k ↔ (j < i ∧ k = j) ∨ (i < j ∧ k = j - 1) := by
  unfold indexAfterRemove?
  split
  · rw [Option.some.injEq]
    omega
  · split
    · simp only [reduceCtorEq, false_iff]
      omega
    · rw [Option.some.injEq]
      omega

theorem indexAfterRemove?_inj {j' : Nat} (h : indexAfterRemove? i j = some k)
    (h' : indexAfterRemove? i j' = some k) : j = j' := by
  rw [indexAfterRemove?_eq_some_iff] at h h'
  omega

/-- No two cells go to the same place. -/
theorem move?_inj (h : r.move? p = some q) (h' : r.move? p' = some q) : p = p' := by
  cases r with
  | insertRow i =>
    have heq := Option.some.inj (h.trans h'.symm)
    rw [Coord.mk.injEq] at heq
    exact congr (congrArg Coord.mk (indexAfterInsert_inj heq.1)) heq.2
  | insertColumn i =>
    have heq := Option.some.inj (h.trans h'.symm)
    rw [Coord.mk.injEq] at heq
    exact congr (congrArg Coord.mk heq.1) (indexAfterInsert_inj heq.2)
  | removeRow i =>
    obtain ⟨row, hrow, rfl⟩ := Option.map_eq_some_iff.1 h
    obtain ⟨row', hrow', heq⟩ := Option.map_eq_some_iff.1 h'
    rw [Coord.mk.injEq] at heq
    rw [heq.1] at hrow'
    exact congr (congrArg Coord.mk (indexAfterRemove?_inj hrow hrow')) heq.2.symm
  | removeColumn i =>
    obtain ⟨col, hcol, rfl⟩ := Option.map_eq_some_iff.1 h
    obtain ⟨col', hcol', heq⟩ := Option.map_eq_some_iff.1 h'
    rw [Coord.mk.injEq] at heq
    rw [heq.2] at hcol'
    exact congr (congrArg Coord.mk heq.1.symm) (indexAfterRemove?_inj hcol hcol')

/-- No index goes further than to the next one. -/
theorem le_of_move? (h : r.move? p = some q) : q.row ≤ p.row + 1 ∧ q.col ≤ p.col + 1 := by
  cases r with
  | insertRow i | insertColumn i =>
    obtain rfl := Option.some.inj h
    simp only [indexAfterInsert]
    split <;> omega
  | removeRow i =>
    obtain ⟨row, hrow, rfl⟩ := Option.map_eq_some_iff.1 h
    rw [indexAfterRemove?_eq_some_iff] at hrow
    exact ⟨by simp only; omega, Nat.le_succ _⟩
  | removeColumn i =>
    obtain ⟨col, hcol, rfl⟩ := Option.map_eq_some_iff.1 h
    rw [indexAfterRemove?_eq_some_iff] at hcol
    exact ⟨Nat.le_succ _, by simp only; omega⟩

/-! ## Where cells come from -/

/-- Where an index comes from when one is inserted; the inserted one is new. -/
def indexBeforeInsert? (added i : Nat) : Option Nat :=
  if i < added then some i else if i = added then none else some (i - 1)

/-- Where an index comes from when one is removed. -/
def indexBeforeRemove (removed i : Nat) : Nat := if i < removed then i else i + 1

/-- Where a row comes from, or `none` for an inserted one. -/
def rowOrigin? : Reshape → Nat → Option Nat
  | .insertRow i, row => indexBeforeInsert? i row
  | .removeRow i, row => some (indexBeforeRemove i row)
  | .insertColumn _, row | .removeColumn _, row => some row

/-- Where a column comes from, or `none` for an inserted one. -/
def colOrigin? : Reshape → Nat → Option Nat
  | .insertColumn i, col => indexBeforeInsert? i col
  | .removeColumn i, col => some (indexBeforeRemove i col)
  | .insertRow _, col | .removeRow _, col => some col

/-- Where a cell comes from, or `none` for one of an inserted row or column. -/
def origin? (r : Reshape) (q : Coord) : Option Coord :=
  (r.rowOrigin? q.row).bind fun row => (r.colOrigin? q.col).map fun col => ⟨row, col⟩

theorem indexBeforeInsert?_eq_some_iff :
    indexBeforeInsert? i j = some k ↔ indexAfterInsert i k = j := by
  unfold indexBeforeInsert? indexAfterInsert
  split
  · rw [Option.some.injEq]
    split <;> omega
  · split
    · simp only [reduceCtorEq, false_iff]
      split <;> omega
    · rw [Option.some.injEq]
      split <;> omega

theorem indexBeforeInsert?_eq_none_iff : indexBeforeInsert? i j = none ↔ j = i := by
  unfold indexBeforeInsert?
  split
  · simp only [reduceCtorEq, false_iff]
    omega
  · split
    · simpa
    · simpa

theorem indexBeforeRemove_eq_iff : indexBeforeRemove i j = k ↔ indexAfterRemove? i k = some j := by
  rw [indexAfterRemove?_eq_some_iff]
  unfold indexBeforeRemove
  split <;> omega

theorem origin?_eq_some_iff_row_col :
    r.origin? q = some p ↔
      r.rowOrigin? q.row = some p.row ∧ r.colOrigin? q.col = some p.col := by
  obtain ⟨row, col⟩ := p
  simp only [origin?, Option.bind_eq_some_iff, Option.map_eq_some_iff, Coord.mk.injEq]
  constructor
  · rintro ⟨row', hrow, col', hcol, rfl, rfl⟩
    exact ⟨hrow, hcol⟩
  · rintro ⟨hrow, hcol⟩
    exact ⟨row, hrow, col, hcol, rfl, rfl⟩

/-- Cells come from where they would go. -/
theorem origin?_eq_some_iff : r.origin? q = some p ↔ r.move? p = some q := by
  obtain ⟨row, col⟩ := p
  obtain ⟨row', col'⟩ := q
  rw [origin?_eq_some_iff_row_col]
  cases r with
  | insertRow i =>
    simp only [rowOrigin?, colOrigin?, move?, indexBeforeInsert?_eq_some_iff, Option.some.injEq,
      Coord.mk.injEq]
    rw [eq_comm (a := col)]
  | removeRow i =>
    simp only [rowOrigin?, colOrigin?, move?, Option.some.injEq, indexBeforeRemove_eq_iff,
      Option.map_eq_some_iff, Coord.mk.injEq]
    constructor
    · rintro ⟨hrow, rfl⟩
      exact ⟨row', hrow, rfl, rfl⟩
    · rintro ⟨_, hrow, rfl, rfl⟩
      exact ⟨hrow, rfl⟩
  | insertColumn i =>
    simp only [rowOrigin?, colOrigin?, move?, indexBeforeInsert?_eq_some_iff, Option.some.injEq,
      Coord.mk.injEq]
    rw [eq_comm (a := row)]
  | removeColumn i =>
    simp only [rowOrigin?, colOrigin?, move?, Option.some.injEq, indexBeforeRemove_eq_iff,
      Option.map_eq_some_iff, Coord.mk.injEq]
    constructor
    · rintro ⟨rfl, hcol⟩
      exact ⟨col', hcol, rfl, rfl⟩
    · rintro ⟨_, hcol, rfl, rfl⟩
      exact ⟨rfl, hcol⟩

/-! ## Rows and columns -/

/-- Whether a change of shape is one of rows, and not of columns. -/
def changesRows : Reshape → Bool
  | .insertRow _ | .removeRow _ => true
  | .insertColumn _ | .removeColumn _ => false

/-- A change of rows leaves every cell in its column. -/
theorem origin?_of_changesRows (h : r.changesRows = true) (q : Coord) :
    r.origin? q = (r.rowOrigin? q.row).map fun row => ⟨row, q.col⟩ := by
  cases r with
  | insertRow i => cases hrow : (insertRow i).rowOrigin? q.row <;> simp [origin?, hrow, colOrigin?]
  | removeRow i => rfl
  | insertColumn i | removeColumn i => cases h

/-- A change of columns leaves every cell in its row. -/
theorem origin?_of_not_changesRows (h : r.changesRows = false) (q : Coord) :
    r.origin? q = (r.colOrigin? q.col).map fun col => ⟨q.row, col⟩ := by
  cases r with
  | insertRow i | removeRow i => cases h
  | insertColumn i | removeColumn i => rfl

theorem col_of_move? (h : r.changesRows = true) (hmove : r.move? p = some q) : q.col = p.col := by
  rw [← origin?_eq_some_iff, origin?_of_changesRows h] at hmove
  obtain ⟨row, -, rfl⟩ := Option.map_eq_some_iff.1 hmove
  rfl

theorem row_of_move? (h : r.changesRows = false) (hmove : r.move? p = some q) :
    q.row = p.row := by
  rw [← origin?_eq_some_iff, origin?_of_not_changesRows h] at hmove
  obtain ⟨col, -, rfl⟩ := Option.map_eq_some_iff.1 hmove
  rfl

/-- Where a cell comes from does not depend on whether rows or columns are changed first. -/
theorem origin?_bind_comm {c : Reshape} (h : r.changesRows ≠ c.changesRows) (q : Coord) :
    (c.origin? q).bind r.origin? = (r.origin? q).bind c.origin? := by
  have hcomm : ∀ r c : Reshape, r.changesRows = true → c.changesRows = false →
      (c.origin? q).bind r.origin? = (r.origin? q).bind c.origin? := by
    intro r c hr hc
    cases hcol : c.colOrigin? q.col <;> cases hrow : r.rowOrigin? q.row <;>
      simp [origin?_of_changesRows hr, origin?_of_not_changesRows hc, hcol, hrow]
  cases hr : r.changesRows with
  | true => exact hcomm r c hr (Bool.eq_false_iff.2 fun hc => h (hr.trans hc.symm))
  | false => exact (hcomm c r (Bool.ne_false_iff.1 fun hc => h (hr.trans hc.symm)) hr).symm

/-- What two changes do to a cell they also do in the other order. -/
theorem exists_move?_of_move? {c : Reshape} {q' : Coord} (h : r.changesRows ≠ c.changesRows)
    (hq : r.move? p = some q) (hq' : c.move? q = some q') :
    ∃ p', c.move? p = some p' ∧ r.move? p' = some q' := by
  have hback : (c.origin? q').bind r.origin? = some p := by
    rw [origin?_eq_some_iff.2 hq', Option.bind_some, origin?_eq_some_iff.2 hq]
  rw [origin?_bind_comm h] at hback
  obtain ⟨p', hp', hp⟩ := Option.bind_eq_some_iff.1 hback
  exact ⟨p', origin?_eq_some_iff.1 hp, origin?_eq_some_iff.1 hp'⟩

theorem getElem?_insertIdx_indexAfterInsert (l : List α) (i j : Nat) (a : α) :
    (l.insertIdx i a)[indexAfterInsert i j]? = l[j]? := by
  unfold indexAfterInsert
  split
  · rw [List.getElem?_insertIdx_of_gt (by omega), Nat.add_sub_cancel]
  · rw [List.getElem?_insertIdx_of_lt (by omega)]

theorem getElem?_eraseIdx_of_indexAfterRemove? (l : List α) (h : indexAfterRemove? i j = some k) :
    (l.eraseIdx i)[k]? = l[j]? := by
  rcases indexAfterRemove?_eq_some_iff.1 h with ⟨hlt, rfl⟩ | ⟨hlt, rfl⟩
  · exact List.getElem?_eraseIdx_of_lt hlt
  · rw [List.getElem?_eraseIdx_of_ge (by omega), Nat.sub_add_cancel (by omega)]

/-- Of a list into which its default item is inserted, each item comes from where its index does. -/
theorem getD_insertIdx (l : List α) (a : α) (i j : Nat) :
    (l.insertIdx i a)[j]?.getD a = ((indexBeforeInsert? i j).map fun k => l[k]?.getD a).getD a := by
  cases hfrom : indexBeforeInsert? i j with
  | some k =>
    rw [← indexBeforeInsert?_eq_some_iff.1 hfrom, getElem?_insertIdx_indexAfterInsert]
    rfl
  | none =>
    -- The index is that of the inserted item, which is past the end where it was not inserted.
    rw [indexBeforeInsert?_eq_none_iff.1 hfrom, List.getElem?_insertIdx_self]
    split <;> rfl

theorem getElem?_eraseIdx_eq (l : List α) (i j : Nat) :
    (l.eraseIdx i)[j]? = l[indexBeforeRemove i j]? :=
  getElem?_eraseIdx_of_indexAfterRemove? l (indexBeforeRemove_eq_iff.1 rfl)

end Reshape

end TableGrid
