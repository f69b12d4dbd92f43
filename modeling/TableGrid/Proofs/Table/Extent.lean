import Mathlib.Data.List.InsertIdx
import Mathlib.Order.Nat
import TableGrid.Proofs.Overlay.Reshape
import TableGrid.Proofs.Table.Reshape

/-!
# Sizes of reshaped tables

The size of a table comes from three places: the counts, the literal rows and the data block.  A
change of shape moves each of them by a rule of its own.  What a table declares grows where a row is
inserted in front of its end or right at it; the data block grows only where an entry lies behind
the new row.  So a row behind the last one is added if that one is declared, and is not if only the
data block reaches it.

Counts are words of 64 bits, and so are the numbers in addresses.  `Table.HasRoom` says that a
change of shape takes none of them past the last one.

## Key results

- `declaredRows_insertRow`, `declaredCols_insertColumn`, `declaredRows_removeRow`: what a table
  declares
- `Overlay.extent_insertRow`, `Overlay.extent_insertColumn`: the size of an overlay
- `hasRoom_insertRow`, `hasRoom_insertColumn`: tables whose last row or column is not the last word
- `extent_insert`: when an insertion succeeds, and when it adds a row or column
-/

namespace TableGrid

namespace Reshape

/-- What an insertion does to the larger one of two indices, it does to each of them. -/
theorem indexAfterInsert_max (i m n : Nat) :
    indexAfterInsert i (max m n) = max (indexAfterInsert i m) (indexAfterInsert i n) := by
  unfold indexAfterInsert
  split <;> split <;> split <;> omega

/-- The least bound of some indices grows with an insertion if one of them lies behind it. -/
theorem bound_insert {α : Type} {S : α → Prop} {index : α → Nat} {i m m' : Nat}
    (hm : ∀ n, m ≤ n ↔ ∀ a, S a → index a < n)
    (hm' : ∀ n, m' ≤ n ↔ ∀ a, S a → indexAfterInsert i (index a) < n) :
    m' = if i < m then m + 1 else m := by
  have hindex : ∀ k, indexAfterInsert i k = if i ≤ k then k + 1 else k := fun _ => rfl
  have hbelow := (hm m).1 (Nat.le_refl m)
  have hbelow' := (hm' m').1 (Nat.le_refl m')
  split
  · rename_i hlt
    apply Nat.le_antisymm
    · refine (hm' _).2 fun a ha => ?_
      have := hbelow a ha
      rw [hindex]
      split <;> omega
    · -- An index at `i` or behind it goes up, and all that stay lie in front of it.
      obtain ⟨a, ha, hle⟩ : ∃ a, S a ∧ i ≤ index a := by
        by_contra hnone
        have := (hm i).2 fun a ha => Nat.lt_of_not_le fun hle => hnone ⟨a, ha, hle⟩
        omega
      have hup := hbelow' a ha
      rw [hindex, if_pos hle] at hup
      have : m ≤ m' - 1 := (hm _).2 fun b hb => by
        have := hbelow' b hb
        rw [hindex] at this
        split at this <;> omega
      omega
  · apply Nat.le_antisymm
    · refine (hm' _).2 fun a ha => ?_
      have := hbelow a ha
      rw [hindex, if_neg (by omega)]
      exact this
    · refine (hm _).2 fun a ha => ?_
      have := hbelow' a ha
      rw [hindex] at this
      split at this <;> omega

end Reshape

namespace Overlay

variable {o : Overlay} {r : Reshape} {i : Nat}

/-- Where all cells are kept, what holds of those mentioned holds of the ones before, where they
    go. -/
theorem forall_mentions_reshape {f : Coord → Coord} (hmove : ∀ p, r.move? p = some (f p))
    (hfits : o.FitsAfter r) (P : Coord → Prop) :
    (∀ q, (o.reshape r).Mentions q → P q) ↔ ∀ p, o.Mentions p → P (f p) := by
  constructor
  · exact fun hall p hp => hall _ (hp.reshape (hmove p) (hfits p _ hp (hmove p)))
  · intro hall q hq
    obtain ⟨p, hp, heq⟩ := mentions_reshape hq
    rw [hmove, Option.some.injEq] at heq
    rw [← heq]
    exact hall p hp

theorem fitsAfter_insertRow (h : o.extent.1 < Text.maxWord) : o.FitsAfter (.insertRow i) := by
  intro p q hp hmove
  have hrow := extent_fst_le_iff.1 (Nat.le_refl _) p hp
  have hle := (Reshape.le_of_move? hmove).1
  refine ⟨by omega, ?_⟩
  rw [Reshape.col_of_move? rfl hmove]
  exact hp.fits.2

theorem fitsAfter_insertColumn (h : o.extent.2 < Text.maxWord) :
    o.FitsAfter (.insertColumn i) := by
  intro p q hp hmove
  have hcol := extent_snd_le_iff.1 (Nat.le_refl _) p hp
  have hle := (Reshape.le_of_move? hmove).2
  refine ⟨?_, by omega⟩
  rw [Reshape.row_of_move? rfl hmove]
  exact hp.fits.1

theorem forall_mentions_insertRow (h : o.FitsAfter (.insertRow i)) (P : Coord → Prop) :
    (∀ q, (o.reshape (.insertRow i)).Mentions q → P q) ↔
      ∀ p, o.Mentions p → P ⟨Reshape.indexAfterInsert i p.row, p.col⟩ :=
  forall_mentions_reshape (fun _ => rfl) h P

theorem forall_mentions_insertColumn (h : o.FitsAfter (.insertColumn i)) (P : Coord → Prop) :
    (∀ q, (o.reshape (.insertColumn i)).Mentions q → P q) ↔
      ∀ p, o.Mentions p → P ⟨p.row, Reshape.indexAfterInsert i p.col⟩ :=
  forall_mentions_reshape (fun _ => rfl) h P

/-- An inserted row leaves all entries in their columns. -/
theorem extent_snd_insertRow (h : o.FitsAfter (.insertRow i)) :
    (o.reshape (.insertRow i)).extent.2 = o.extent.2 := by
  refine eq_of_forall_ge_iff fun n => ?_
  rw [extent_snd_le_iff, extent_snd_le_iff]
  exact forall_mentions_insertRow h (·.col < n)

/-- An inserted column leaves all entries in their rows. -/
theorem extent_fst_insertColumn (h : o.FitsAfter (.insertColumn i)) :
    (o.reshape (.insertColumn i)).extent.1 = o.extent.1 := by
  refine eq_of_forall_ge_iff fun n => ?_
  rw [extent_fst_le_iff, extent_fst_le_iff]
  exact forall_mentions_insertColumn h (·.row < n)

/-- An inserted row moves the last entry, unless it comes behind that. -/
theorem extent_insertRow (h : o.FitsAfter (.insertRow i)) :
    (o.reshape (.insertRow i)).extent =
      (if i < o.extent.1 then o.extent.1 + 1 else o.extent.1, o.extent.2) := by
  refine Prod.ext ?_ (extent_snd_insertRow h)
  refine Reshape.bound_insert (fun n => extent_fst_le_iff) fun n => ?_
  exact extent_fst_le_iff.trans (forall_mentions_insertRow h (·.row < n))

/-- An inserted column moves the last entry, unless it comes behind that. -/
theorem extent_insertColumn (h : o.FitsAfter (.insertColumn i)) :
    (o.reshape (.insertColumn i)).extent =
      (o.extent.1, if i < o.extent.2 then o.extent.2 + 1 else o.extent.2) := by
  refine Prod.ext (extent_fst_insertColumn h) ?_
  refine Reshape.bound_insert (fun n => extent_snd_le_iff) fun n => ?_
  exact extent_snd_le_iff.trans (forall_mentions_insertColumn h (·.col < n))

end Overlay

namespace Table

variable {t t' : Table} {r : Reshape} {i n : Nat}

/-! ## Room for an insertion -/

/-- Whether a count that an insertion raises, if there is one, is not the last word. -/
def CountFitsAfter (i : Nat) (count : Option Nat) : Prop :=
  ∀ n ∈ count, i ≤ n → n ≠ Text.maxWord

instance (i : Nat) : (count : Option Nat) → Decidable (CountFitsAfter i count)
  | none => isTrue fun _ hn => nomatch hn
  | some n => decidable_of_iff (i ≤ n → n ≠ Text.maxWord) (by simp [CountFitsAfter])

/-- Whether a change of shape takes no count, and no number in an address of the data block, past the
    last word. -/
def HasRoom (t : Table) (r : Reshape) : Prop :=
  t.blockOverlay.FitsAfter r ∧
    match r with
    | .insertRow i => CountFitsAfter i t.rowCount
    | .insertColumn i => CountFitsAfter i t.colCount
    | .removeRow _ | .removeColumn _ => True

instance (t : Table) : (r : Reshape) → Decidable (t.HasRoom r)
  | .insertRow i => inferInstanceAs (Decidable (_ ∧ CountFitsAfter i t.rowCount))
  | .insertColumn i => inferInstanceAs (Decidable (_ ∧ CountFitsAfter i t.colCount))
  | .removeRow _ | .removeColumn _ => inferInstanceAs (Decidable (_ ∧ True))

/-- A row can be inserted into any table that does not have as many rows as there are addresses. -/
theorem hasRoom_insertRow (h : t.extent.1 < Text.maxWord) : t.HasRoom (.insertRow i) := by
  rw [extent_eq, Nat.max_lt] at h
  refine ⟨Overlay.fitsAfter_insertRow h.1, fun n hn _ => ?_⟩
  have hle := (declaredRows_le_iff.1 (Nat.le_refl t.declaredRows)).1
  rw [Option.mem_def.1 hn, Option.getD_some] at hle
  omega

/-- A column can be inserted into any table that does not have as many columns as there are
    addresses. -/
theorem hasRoom_insertColumn (h : t.extent.2 < Text.maxWord) : t.HasRoom (.insertColumn i) := by
  rw [extent_eq, Nat.max_lt] at h
  refine ⟨Overlay.fitsAfter_insertColumn h.1, fun n hn _ => ?_⟩
  have hle := (declaredCols_le_iff.1 (Nat.le_refl t.declaredCols)).1
  rw [Option.mem_def.1 hn, Option.getD_some] at hle
  omega

/-- A count that fits goes where an index would. -/
theorem map_countAfterInsert {count : Option Nat} (h : CountFitsAfter i count) :
    count.map (countAfterInsert i) = count.map (Reshape.indexAfterInsert i) := by
  cases count with
  | none => rfl
  | some n =>
    simp only [Option.map_some, countAfterInsert, Reshape.indexAfterInsert, Option.some.injEq]
    split
    · rename_i hle
      rw [Text.nextWord, if_neg (h n rfl hle)]
    · rfl

/-! ## What a table declares -/

theorem length_insertAt {α : Type} (i : Nat) (a : α) (l : List α) :
    (insertAt i a l).length = Reshape.indexAfterInsert i l.length := List.length_insertIdx

/-- A new row is declared if it comes before the end of those declared, or right there. -/
theorem declaredRows_insertRow (h : t.reshape (.insertRow i) = .ok t')
    (hcount : CountFitsAfter i t.rowCount) :
    t'.declaredRows = Reshape.indexAfterInsert i t.declaredRows := by
  rw [declaredRows, declaredRows, (of_reshape_eq_ok h).1, (counts_of_reshape_eq_ok h).1]
  simp only [reshapeRows, reshapeRowCount, length_insertAt, map_countAfterInsert hcount]
  cases t.rowCount with
  | none => simp only [Option.map_none, Option.getD_none, Nat.zero_max]
  | some count => exact (Reshape.indexAfterInsert_max i count t.rows.length).symm

/-- A row that is removed is declared no more. -/
theorem declaredRows_removeRow (h : t.reshape (.removeRow i) = .ok t') :
    t'.declaredRows = countAfterRemove i t.declaredRows := by
  rw [declaredRows, declaredRows, (of_reshape_eq_ok h).1, (counts_of_reshape_eq_ok h).1]
  simp only [reshapeRows, reshapeRowCount, List.length_eraseIdx]
  cases t.rowCount with
  | none => simp only [Option.map_none, Option.getD_none, Nat.zero_max, countAfterRemove]
  | some count =>
    simp only [Option.map_some, Option.getD_some, countAfterRemove]
    split <;> split <;> split <;> omega

theorem declaredRows_insertColumn (h : t.reshape (.insertColumn i) = .ok t') :
    t'.declaredRows = t.declaredRows := by
  rw [declaredRows, declaredRows, (of_reshape_eq_ok h).1, (counts_of_reshape_eq_ok h).1]
  simp only [reshapeRows, reshapeRowCount, List.length_map]

/-- The new row has no cells. -/
theorem declaredCols_insertRow (h : t.reshape (.insertRow i) = .ok t') :
    t'.declaredCols = t.declaredCols := by
  refine eq_of_forall_ge_iff fun n => ?_
  rw [declaredCols, declaredCols, List.foldl_max_le_iff, List.foldl_max_le_iff,
    (of_reshape_eq_ok h).1, (counts_of_reshape_eq_ok h).2]
  refine and_congr_right' ⟨fun hall row hrow => ?_, fun hall row hrow => ?_⟩
  · obtain ⟨k, hk⟩ := List.mem_iff_getElem?.1 hrow
    rw [← Reshape.getElem?_insertIdx_indexAfterInsert t.rows i k {}] at hk
    exact hall row (List.mem_of_getElem? hk)
  · rcases List.eq_or_mem_of_mem_insertIdx hrow with rfl | hold
    · exact Nat.zero_le n
    · exact hall row hold

/-- The length of a list after an item is put into it, if it has any. -/
def lengthAfterInsert (i length : Nat) : Nat :=
  if length = 0 then 0 else Reshape.indexAfterInsert i length

theorem length_insertIfAny {α : Type} (i : Nat) (a : α) (l : List α) :
    (insertIfAny i a l).length = lengthAfterInsert i l.length := by
  rw [insertIfAny, lengthAfterInsert]
  cases l with
  | nil => rfl
  | cons b l => rw [if_neg (by simp), if_neg (by simp), length_insertAt]

theorem lengthAfterInsert_max (i m n : Nat) :
    lengthAfterInsert i (max m n) = max (lengthAfterInsert i m) (lengthAfterInsert i n) := by
  unfold lengthAfterInsert
  rcases Nat.eq_zero_or_pos m with rfl | hm
  · simp
  · rcases Nat.eq_zero_or_pos n with rfl | hn
    · simp
    · rw [if_neg (by omega), if_neg (by omega), if_neg (by omega), Reshape.indexAfterInsert_max]

/-- A new column is declared if it comes before the end of those declared, or right there.  Where
    there are none, only a count makes it one. -/
theorem declaredCols_insertColumn (h : t.reshape (.insertColumn i) = .ok t')
    (hcount : CountFitsAfter i t.colCount) :
    t'.declaredCols =
      if t.declaredCols = 0 ∧ t.colCount = none then 0
      else Reshape.indexAfterInsert i t.declaredCols := by
  rw [declaredCols, declaredCols, (of_reshape_eq_ok h).1, (counts_of_reshape_eq_ok h).2]
  simp only [reshapeRows, reshapeColCount, List.foldl_map, length_insertIfAny,
    map_countAfterInsert hcount]
  cases t.colCount with
  | some count =>
    rw [if_neg (by simp)]
    refine List.foldl_hom (Reshape.indexAfterInsert i) fun cols row => ?_
    rw [Reshape.indexAfterInsert_max, lengthAfterInsert]
    -- Next to a count it does not matter that a row without cells stays empty.
    split
    · rename_i hempty
      rw [hempty]
      simp only [Reshape.indexAfterInsert]
      split <;> split <;> omega
    · rfl
  | none =>
    simp only [and_true]
    refine @List.foldl_hom _ _ _ (lengthAfterInsert i) _ _ t.rows 0 fun cols row => ?_
    exact (lengthAfterInsert_max i cols row.cells.length).symm

/-! ## Sizes after an insertion -/

/-- A row is added in front of the last one, and behind it if that is declared. -/
theorem extent_insertRow (h : t.reshape (.insertRow i) = .ok t')
    (hroom : t.HasRoom (.insertRow i)) :
    t'.extent =
      if i < t.extent.1 ∨ i = t.declaredRows then (t.extent.1 + 1, t.extent.2) else t.extent := by
  have hle : i ≤ t.extent.1 := (exists_reshape_iff t (.insertRow i)).1 ⟨t', h⟩
  rw [extent_eq, blockOverlay_reshape h, Overlay.extent_insertRow hroom.1,
    declaredRows_insertRow h hroom.2, declaredCols_insertRow h]
  rw [extent_eq] at hle ⊢
  -- The data block has to reach beyond the index, what is declared only as far as that.
  simp only [Reshape.indexAfterInsert] at hle ⊢
  split <;> split <;> split <;> simp only [Prod.mk.injEq, and_true] <;> omega

/-- A column is added in front of the last one, and behind it if that is declared.  A table without
    columns has to count them. -/
theorem extent_insertColumn (h : t.reshape (.insertColumn i) = .ok t')
    (hroom : t.HasRoom (.insertColumn i)) :
    t'.extent =
      if i < t.extent.2 ∨ (i = t.declaredCols ∧ (i = 0 → t.colCount.isSome)) then
        (t.extent.1, t.extent.2 + 1)
      else t.extent := by
  have hle : i ≤ t.extent.2 := (exists_reshape_iff t (.insertColumn i)).1 ⟨t', h⟩
  rw [extent_eq, blockOverlay_reshape h, Overlay.extent_insertColumn hroom.1,
    declaredRows_insertColumn h, declaredCols_insertColumn h hroom.2]
  rw [extent_eq] at hle ⊢
  simp only [Reshape.indexAfterInsert] at hle ⊢
  cases t.colCount with
  | none =>
    simp only [and_true, Option.isSome_none, Bool.false_eq_true, imp_false]
    split <;> split <;> grind
  | some count =>
    simp only [reduceCtorEq, and_false, if_false, Option.isSome_some, implies_true, and_true]
    split <;> split <;> split <;> simp only [Prod.mk.injEq, true_and] <;> omega

/-- An insertion succeeds exactly up to the end of a table.  Where there is room, it adds a row or
    column in front of the end, and behind the last one if that is declared; a row or column behind
    one that only the data block reaches is not added, nor is a column of a table that counts no
    columns and has none. -/
theorem extent_insert (t : Table) (i : Nat) :
    ((∃ t', t.reshape (.insertRow i) = .ok t') ↔ i ≤ t.extent.1) ∧
    ((∃ t', t.reshape (.insertColumn i) = .ok t') ↔ i ≤ t.extent.2) ∧
    (∀ t', t.reshape (.insertRow i) = .ok t' → t.HasRoom (.insertRow i) →
      t'.extent =
        if i < t.extent.1 ∨ i = t.declaredRows then (t.extent.1 + 1, t.extent.2)
        else t.extent) ∧
    ∀ t', t.reshape (.insertColumn i) = .ok t' → t.HasRoom (.insertColumn i) →
      t'.extent =
        if i < t.extent.2 ∨ (i = t.declaredCols ∧ (i = 0 → t.colCount.isSome)) then
          (t.extent.1, t.extent.2 + 1)
        else t.extent :=
  ⟨exists_reshape_iff t (.insertRow i), exists_reshape_iff t (.insertColumn i),
    fun _ => extent_insertRow, fun _ => extent_insertColumn⟩

/-- A row in front of one that only the data block reaches, and a column behind the last one, which
    has a literal cell. -/
theorem extent_insert_block :
    let block : DataBlock := { overlay := Overlay.empty.insert "A3" (.plain (.text "x")) }
    let t : Table := { rows := [{ cells := [.plain (.text "a")] }], block := some block }
    t.extent = (3, 1) ∧
      (∃ t', t.reshape (.insertRow 2) = .ok t' ∧ t'.extent = (4, 1)) ∧
      ∃ t', t.reshape (.insertColumn 1) = .ok t' ∧ t'.extent = (3, 2) := by
  intro block t
  have hextent : t.extent = (3, 1) := by decide +kernel
  obtain ⟨hrow, -, hrows, -⟩ := extent_insert t 2
  obtain ⟨t', ht'⟩ := hrow.2 (by rw [hextent]; decide)
  obtain ⟨-, hcol, -, hcols⟩ := extent_insert t 1
  obtain ⟨t'', ht''⟩ := hcol.2 (by rw [hextent])
  refine ⟨hextent, ⟨t', ht', ?_⟩, ⟨t'', ht'', ?_⟩⟩
  · have hroom : t.HasRoom (.insertRow 2) := hasRoom_insertRow (by rw [hextent]; decide)
    rw [hrows t' ht' hroom, hextent, if_pos (.inl (by decide))]
  · have hroom : t.HasRoom (.insertColumn 1) := hasRoom_insertColumn (by rw [hextent]; decide)
    rw [hcols t'' ht'' hroom, hextent, if_pos (.inr (by decide +kernel))]

/-- A row behind one that only the data block reaches is lost, and where the count is the last word,
    all rows but the new one are. -/
theorem extent_insertRow_lost :
    let block : DataBlock := { overlay := Overlay.empty.insert "A3" (.plain (.text "x")) }
    let t : Table := { block := some block }
    let counted : Table := { rowCount := some Text.maxWord }
    3 ≤ t.extent.1 ∧ (t.reshape (.insertRow 3)).map Table.extent = .ok t.extent ∧
      counted.extent = (Text.maxWord, 0) ∧
      (counted.reshape (.insertRow 0)).map Table.extent = .ok (1, 0) := by
  decide +kernel

end Table

end TableGrid
