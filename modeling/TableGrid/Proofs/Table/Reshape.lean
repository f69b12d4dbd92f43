import TableGrid.Proofs.Table.Content

/-!
# Contents of reshaped tables

A cell that a change of shape keeps has the same content afterwards, wherever it went.

## Key results

- `reshape_eq`: when a change of shape succeeds, and the table afterwards
- `literal?_reshape`: literal entries move with their cells
- `content_reshape`: contents move with their cells
- `Stored.reshape`: cells stored stay stored
-/

namespace TableGrid

namespace Overlay

@[simp] theorem reshape_empty (r : Reshape) : empty.reshape r = empty := by
  apply ext_get?
  intro key
  rw [get?_empty, Option.eq_none_iff_forall_ne_some]
  intro entry hentry
  obtain ⟨key', hget, -⟩ := exists_of_get?_reshape hentry
  rw [get?_empty] at hget
  cases hget

end Overlay

namespace Table

variable {t t' : Table} {r : Reshape} {p q : Coord}

/-- The literal rows of a reshaped table. -/
def reshapeRows : Reshape → List Row → List Row
  | .insertRow i, rows => insertAt i {} rows
  | .removeRow i, rows => rows.eraseIdx i
  | .insertColumn i, rows =>
    rows.map fun row => { row with cells := insertIfAny i (.plain .empty) row.cells }
  | .removeColumn i, rows => rows.map fun row => { row with cells := row.cells.eraseIdx i }

/-- The columns of a reshaped table. -/
def reshapeColumns : Reshape → List Column → List Column
  | .insertColumn i, columns => insertIfAny i {} columns
  | .removeColumn i, columns => columns.eraseIdx i
  | .insertRow _, columns | .removeRow _, columns => columns

/-- The number of rows that a reshaped table counts. -/
def reshapeRowCount : Reshape → Option Nat → Option Nat
  | .insertRow i, count => count.map (countAfterInsert i)
  | .removeRow i, count => count.map (countAfterRemove i)
  | .insertColumn _, count | .removeColumn _, count => count

/-- The number of columns that a reshaped table counts. -/
def reshapeColCount : Reshape → Option Nat → Option Nat
  | .insertColumn i, count => count.map (countAfterInsert i)
  | .removeColumn i, count => count.map (countAfterRemove i)
  | .insertRow _, count | .removeRow _, count => count

/-- A table with all its parts reshaped, each on its own. -/
def reshaped (t : Table) (r : Reshape) : Table :=
  { t with
    rowCount := reshapeRowCount r t.rowCount
    colCount := reshapeColCount r t.colCount
    rows := reshapeRows r t.rows
    columns := reshapeColumns r t.columns
    block := reshapeBlock r t.block }

/-- Whether a table has the row or column to be removed, or the place where one is to be
    inserted. -/
def HasPlace (t : Table) : Reshape → Prop
  | .insertRow i => i ≤ t.extent.1
  | .removeRow i => i < t.extent.1
  | .insertColumn i => i ≤ t.extent.2
  | .removeColumn i => i < t.extent.2

instance (t : Table) : (r : Reshape) → Decidable (t.HasPlace r)
  | .insertRow i => inferInstanceAs (Decidable (i ≤ t.extent.1))
  | .removeRow i => inferInstanceAs (Decidable (i < t.extent.1))
  | .insertColumn i => inferInstanceAs (Decidable (i ≤ t.extent.2))
  | .removeColumn i => inferInstanceAs (Decidable (i < t.extent.2))

/-- Why a change of shape fails where there is no place for it. -/
def placeError (t : Table) : Reshape → TableError
  | .insertRow i | .removeRow i => .rowOutOfBounds i t.extent.1
  | .insertColumn i | .removeColumn i => .columnOutOfBounds i t.extent.2

theorem reshape_of_hasPlace (h : t.HasPlace r) : t.reshape r = .ok (t.reshaped r) := by
  cases r with
  | insertRow i | insertColumn i => exact if_neg (Nat.not_lt.2 h)
  | removeRow i | removeColumn i => exact if_neg (Nat.not_le.2 h)

theorem reshape_of_not_hasPlace (h : ¬t.HasPlace r) : t.reshape r = .error (t.placeError r) := by
  cases r with
  | insertRow i | insertColumn i => exact if_pos (Nat.lt_of_not_le h)
  | removeRow i | removeColumn i => exact if_pos (Nat.le_of_not_lt h)

/-- A change of shape either finds its place, or it fails and says that there is none. -/
theorem reshape_eq (t : Table) (r : Reshape) :
    t.reshape r = if t.HasPlace r then .ok (t.reshaped r) else .error (t.placeError r) := by
  split
  · rename_i hplace
    exact reshape_of_hasPlace hplace
  · rename_i hplace
    exact reshape_of_not_hasPlace hplace

theorem reshape_eq_ok_iff : t.reshape r = .ok t' ↔ t.HasPlace r ∧ t.reshaped r = t' := by
  rw [reshape_eq]
  split
  · rename_i hplace
    rw [Except.ok.injEq, and_iff_right hplace]
  · rename_i hplace
    simp only [reduceCtorEq, hplace, false_and]

/-- The literal rows and the data block are reshaped, each on its own. -/
theorem of_reshape_eq_ok (h : t.reshape r = .ok t') :
    t'.rows = reshapeRows r t.rows ∧ t'.block = reshapeBlock r t.block := by
  obtain ⟨-, rfl⟩ := reshape_eq_ok_iff.1 h
  exact ⟨rfl, rfl⟩

/-- The counts are changed on their own, like the rows and the data block. -/
theorem counts_of_reshape_eq_ok (h : t.reshape r = .ok t') :
    t'.rowCount = reshapeRowCount r t.rowCount ∧ t'.colCount = reshapeColCount r t.colCount := by
  obtain ⟨-, rfl⟩ := reshape_eq_ok_iff.1 h
  exact ⟨rfl, rfl⟩

theorem columns_of_reshape_eq_ok (h : t.reshape r = .ok t') :
    t'.columns = reshapeColumns r t.columns := by
  obtain ⟨-, rfl⟩ := reshape_eq_ok_iff.1 h
  rfl

/-- A change of shape succeeds exactly where there is a place for it. -/
theorem exists_reshape_iff (t : Table) (r : Reshape) :
    (∃ t', t.reshape r = .ok t') ↔ t.HasPlace r := by
  simp only [reshape_eq_ok_iff, exists_and_left, exists_eq', and_true]

/-- The data block moves along. -/
theorem blockOverlay_reshape (h : t.reshape r = .ok t') :
    t'.blockOverlay = t.blockOverlay.reshape r := by
  rw [blockOverlay, blockOverlay, overlay?, overlay?, (of_reshape_eq_ok h).2]
  cases t.block with
  | none => exact (Overlay.reshape_empty r).symm
  | some block => rfl

/-- A cell put into every row that has any cells moves the cells behind it. -/
theorem getElem?_insertIfAny {α : Type} (i : Nat) (a : α) (l : List α) (j : Nat) :
    (insertIfAny i a l)[Reshape.indexAfterInsert i j]? = l[j]? := by
  unfold insertIfAny insertAt
  split
  · rename_i hempty
    rw [List.isEmpty_iff.1 hempty]
    rfl
  · exact Reshape.getElem?_insertIdx_indexAfterInsert l i j a

/-- Literal entries move with their cells. -/
theorem literal?_reshape (h : t.reshape r = .ok t') (hmove : r.move? p = some q) :
    t'.literal? q = t.literal? p := by
  rw [literal?, literal?, (of_reshape_eq_ok h).1]
  -- Rows move as items of the list of rows, cells as items of each row.
  cases r with
  | insertRow i =>
    obtain rfl := Option.some.inj hmove
    simp only [reshapeRows, insertAt, Reshape.getElem?_insertIdx_indexAfterInsert]
  | removeRow i =>
    obtain ⟨row, hrow, rfl⟩ := Option.map_eq_some_iff.1 hmove
    simp only [reshapeRows, Reshape.getElem?_eraseIdx_of_indexAfterRemove? _ hrow]
  | insertColumn i =>
    obtain rfl := Option.some.inj hmove
    simp only [reshapeRows, List.getElem?_map, Option.bind_map, Function.comp_def,
      getElem?_insertIfAny]
  | removeColumn i =>
    obtain ⟨col, hcol, rfl⟩ := Option.map_eq_some_iff.1 hmove
    simp only [reshapeRows, List.getElem?_map, Option.bind_map, Function.comp_def,
      Reshape.getElem?_eraseIdx_of_indexAfterRemove? _ hcol]

/-- Contents move with their cells. -/
theorem content_reshape (h : t.reshape r = .ok t') (hblock : t.blockOverlay.Canonical)
    (hmove : r.move? p = some q) (hp : p.Fits) (hq : q.Fits) : t'.content q = t.content p := by
  rw [content_eq, content_eq, blockOverlay_reshape h, literalContent, literalContent,
    literal?_reshape h hmove, Overlay.contentAt?, Overlay.contentAt?,
    hblock.getAt?_reshape hmove hp hq]

/-- Cells stored stay stored where they go. -/
theorem Stored.reshape (hstored : t.Stored p) (h : t.reshape r = .ok t')
    (hmove : r.move? p = some q) (hq : q.Fits) : t'.Stored q := by
  rcases hstored with hliteral | hmentions
  · exact .inl (by rwa [literal?_reshape h hmove])
  · exact .inr (by rw [blockOverlay_reshape h]; exact hmentions.reshape hmove hq)

theorem canonical_reshape (h : t.reshape r = .ok t') : t'.blockOverlay.Canonical := by
  rw [blockOverlay_reshape h]
  exact Overlay.canonical_reshape _ r

end Table

end TableGrid
