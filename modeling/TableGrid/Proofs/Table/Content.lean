import TableGrid.Table.Basic
import TableGrid.Proofs.Overlay.Canonical

/-!
# Contents of tables

The content of a cell is that of the data block, or else that of the literal rows.  Storing a
content changes one cell, and the size stays where that cell lies inside.

## Key results

- `content_eq`: where contents come from
- `extent_fst_le_iff`, `extent_snd_le_iff`: the size is the least one to reach all cells stored
- `literal?_setLiteral`: storing a content in the literal rows
- `content_setContent`, `stored_setContent`, `extent_setContent`: storing a content
-/

namespace TableGrid

namespace Table

variable {t : Table} {p q : Coord}

/-- The overlay of the data block, an empty one if there is none. -/
def blockOverlay (t : Table) : Overlay := t.overlay?.getD .empty

/-- The content of the literal entry of a cell. -/
def literalContent (t : Table) (p : Coord) : Content :=
  ((t.literal? p).bind Entry.content?).getD .empty

/-- The data block comes before the literal rows. -/
theorem content_eq (t : Table) (p : Coord) :
    t.content p = (t.blockOverlay.contentAt? p).getD (t.literalContent p) := by
  unfold content blockOverlay Overlay.contentAt?
  cases t.overlay? with
  | none => simp [Overlay.getAt?, literalContent]
  | some o =>
    rw [Option.bind_some, Option.getD_some]
    cases (o.getAt? p).bind Entry.content? <;> rfl

/-- Whether a table has an entry for a cell, a literal one or one in the data block. -/
def Stored (t : Table) (p : Coord) : Prop := (t.literal? p).isSome ∨ t.blockOverlay.Mentions p

/-! ## Size -/

theorem declaredRows_le_iff {n : Nat} :
    t.declaredRows ≤ n ↔ t.rowCount.getD 0 ≤ n ∧ t.rows.length ≤ n := by
  rw [declaredRows, Nat.max_le]

/-- Literal cells lie inside the literal rows. -/
theorem row_lt_of_literal? (h : (t.literal? p).isSome) : p.row < t.rows.length := by
  obtain ⟨entry, hentry⟩ := Option.isSome_iff_exists.1 h
  obtain ⟨row, hrow, -⟩ := Option.bind_eq_some_iff.1 hentry
  exact (List.getElem?_eq_some_iff.1 hrow).1

theorem declaredCols_le_iff {n : Nat} :
    t.declaredCols ≤ n ↔ t.colCount.getD 0 ≤ n ∧ ∀ p, (t.literal? p).isSome → p.col < n := by
  rw [declaredCols, List.foldl_max_le_iff]
  refine and_congr_right' ⟨?_, ?_⟩
  · intro h p hsome
    obtain ⟨entry, hentry⟩ := Option.isSome_iff_exists.1 hsome
    obtain ⟨row, hrow, hcell⟩ := Option.bind_eq_some_iff.1 hentry
    have hlength := h row (List.mem_of_getElem? hrow)
    have hcol := (List.getElem?_eq_some_iff.1 hcell).1
    omega
  · intro h row hmem
    obtain ⟨i, hrow⟩ := List.mem_iff_getElem?.1 hmem
    -- The last literal cell of the row gives the bound.
    cases hlength : row.cells.length with
    | zero => exact Nat.zero_le n
    | succ k =>
      have hcell : row.cells[k]? = some row.cells[k] := List.getElem?_eq_getElem (by omega)
      exact h ⟨i, k⟩ (by rw [literal?, hrow, Option.bind_some, hcell]; rfl)

theorem extent_eq (t : Table) :
    t.extent =
      (max t.blockOverlay.extent.1 t.declaredRows, max t.blockOverlay.extent.2 t.declaredCols) := by
  unfold extent blockOverlay
  cases t.overlay? <;> simp [Overlay.extent, Overlay.placements_empty]

/-- The number of rows is the least one to reach the count, the literal rows and all cells
    stored. -/
theorem extent_fst_le_iff {n : Nat} :
    t.extent.1 ≤ n ↔
      t.rowCount.getD 0 ≤ n ∧ t.rows.length ≤ n ∧ ∀ p, t.Stored p → p.row < n := by
  rw [extent_eq, Nat.max_le, Overlay.extent_fst_le_iff, declaredRows_le_iff]
  constructor
  · rintro ⟨hblock, hcount, hrows⟩
    refine ⟨hcount, hrows, ?_⟩
    rintro p (hliteral | hmentions)
    · have := row_lt_of_literal? hliteral
      omega
    · exact hblock p hmentions
  · rintro ⟨hcount, hrows, hstored⟩
    exact ⟨fun p hp => hstored p (.inr hp), hcount, hrows⟩

/-- The number of columns is the least one to reach the count and all cells stored. -/
theorem extent_snd_le_iff {n : Nat} :
    t.extent.2 ≤ n ↔ t.colCount.getD 0 ≤ n ∧ ∀ p, t.Stored p → p.col < n := by
  rw [extent_eq, Nat.max_le, Overlay.extent_snd_le_iff, declaredCols_le_iff]
  constructor
  · rintro ⟨hblock, hcount, hliteral⟩
    refine ⟨hcount, ?_⟩
    rintro p (hp | hp)
    · exact hliteral p hp
    · exact hblock p hp
  · rintro ⟨hcount, hstored⟩
    exact ⟨fun p hp => hstored p (.inr hp), hcount, fun p hp => hstored p (.inl hp)⟩

/-- Whether a coordinate lies inside a table. -/
def Contains (t : Table) (p : Coord) : Prop := p.row < t.extent.1 ∧ p.col < t.extent.2

theorem Stored.contains (h : t.Stored p) : t.Contains p :=
  ⟨(extent_fst_le_iff.1 (Nat.le_refl _)).2.2 p h, (extent_snd_le_iff.1 (Nat.le_refl _)).2 p h⟩

/-! ## Storing a content in the literal rows -/

theorem getElem?_padTo {α : Type} (n : Nat) (a : α) (l : List α) (i : Nat) :
    (padTo n a l)[i]? = if i < n then some (l[i]?.getD a) else l[i]? := by
  rw [padTo, List.getElem?_append, List.getElem?_replicate]
  split
  · rename_i hlt
    rw [List.getElem?_eq_getElem hlt]
    split <;> rfl
  · rename_i hge
    rw [List.getElem?_eq_none (by omega)]
    split <;> split <;> first | rfl | omega

/-- Extending a list up to an index and changing the item there. -/
theorem getElem?_modify_padTo {α : Type} (n : Nat) (a : α) (f : α → α) (l : List α) (i : Nat) :
    ((padTo (n + 1) a l).modify n f)[i]? =
      if n = i then some (f (l[i]?.getD a))
      else if i < n then some (l[i]?.getD a) else l[i]? := by
  rw [List.getElem?_modify, getElem?_padTo]
  split
  · rename_i heq
    subst heq
    rw [if_pos (by omega)]
    rfl
  -- Items in front are there after the extension, items behind have been there before.
  · by_cases hlt : i < n
    · rw [if_pos (by omega), if_pos hlt]
      rfl
    · rw [if_neg (by omega), if_neg hlt]
      cases l[i]? <;> rfl

theorem getElem?_cells_getD (t : Table) (row col : Nat) :
    (t.rows[row]?.getD {}).cells[col]? = t.literal? ⟨row, col⟩ := by
  rw [literal?]
  cases t.rows[row]? <;> rfl

/-- A content stored in the literal rows; cells before it in its row become literal too. -/
theorem literal?_setLiteral (t : Table) (p : Coord) (c : Content) (q : Coord) :
    (t.setLiteral p c).literal? q =
      if p = q then some (((t.literal? p).getD (.plain .empty)).setContent c)
      else if p.row = q.row ∧ q.col < p.col then some ((t.literal? q).getD (.plain .empty))
      else t.literal? q := by
  obtain ⟨prow, pcol⟩ := p
  obtain ⟨qrow, qcol⟩ := q
  rw [literal?, setLiteral, getElem?_modify_padTo]
  simp only [Coord.mk.injEq]
  -- Cells become literal in the row of the cell only; rows in front are extended by empty ones.
  by_cases hrow : prow = qrow
  · subst hrow
    rw [if_pos rfl, Option.bind_some, getElem?_modify_padTo, getElem?_cells_getD]
    by_cases hcol : pcol = qcol
    · subst hcol
      rw [if_pos rfl, if_pos ⟨rfl, rfl⟩]
    · simp only [hcol, and_false, if_false, true_and]
  · simp only [hrow, false_and, if_false]
    split
    · rw [Option.bind_some, getElem?_cells_getD]
    · rfl

theorem literalContent_setLiteral (t : Table) (p : Coord) (c : Content) (q : Coord) :
    (t.setLiteral p c).literalContent q = if p = q then c else t.literalContent q := by
  unfold literalContent
  rw [literal?_setLiteral]
  split
  · cases (t.literal? p).getD (.plain .empty) <;> rfl
  · split
    · cases t.literal? q <;> rfl
    · rfl

/-- Cells that become literal lie up to the cell stored. -/
theorem stored_setLiteral (c : Content) (h : (t.setLiteral p c).Stored q) :
    t.Stored q ∨ (q.row = p.row ∧ q.col ≤ p.col) := by
  rcases h with h | h
  · rw [literal?_setLiteral] at h
    split at h
    · rename_i heq
      subst heq
      exact .inr ⟨rfl, Nat.le_refl _⟩
    · split at h
      · rename_i hbefore
        exact .inr ⟨hbefore.1.symm, by omega⟩
      · exact .inl (.inl h)
  · exact .inl (.inr h)

theorem Stored.setLiteral (h : t.Stored q) (p : Coord) (c : Content) :
    (t.setLiteral p c).Stored q := by
  rcases h with h | h
  · refine .inl ?_
    rw [literal?_setLiteral]
    split
    · rfl
    · split
      · rfl
      · exact h
  · exact .inr h

theorem length_rows_setLiteral (t : Table) (p : Coord) (c : Content) :
    (t.setLiteral p c).rows.length = max (p.row + 1) t.rows.length := by
  simp only [Table.setLiteral, padTo, List.length_modify, List.length_append,
    List.length_replicate]
  omega

/-! ## Storing a content -/

/-- A content is stored in the data block if that has an entry for the cell. -/
theorem setContent_cases (t : Table) (p : Coord) (c : Content) :
    (∃ block, t.block = some block ∧ (t.blockOverlay.getAt? p).isSome ∧
      t.setContent p c =
        { t with block := some { block with overlay := t.blockOverlay.setContent p c } }) ∨
    (t.blockOverlay.getAt? p = none ∧ t.setContent p c = t.setLiteral p c) := by
  unfold setContent blockOverlay overlay?
  cases t.block with
  | none => exact .inr ⟨Overlay.get?_empty _, rfl⟩
  | some block =>
    simp only [Option.map_some, Option.getD_some]
    split
    · rename_i hsome
      exact .inl ⟨block, rfl, hsome, rfl⟩
    · rename_i hnone
      exact .inr ⟨by simpa using hnone, rfl⟩

/-- Storing a content changes one cell. -/
theorem content_setContent (t : Table) (p : Coord) (c : Content) (q : Coord) :
    (t.setContent p c).content q = if p = q then c else t.content q := by
  rcases setContent_cases t p c with ⟨block, -, -, heq⟩ | ⟨hnone, heq⟩
  · have hblock : (t.setContent p c).blockOverlay = t.blockOverlay.setContent p c := by
      rw [heq]
      rfl
    have hliteral : (t.setContent p c).literalContent q = t.literalContent q := by
      rw [heq]
      rfl
    rw [content_eq, content_eq, hblock, hliteral, Overlay.contentAt?_setContent_eq_ite]
    simp only [Coord.address_injective.eq_iff]
    split <;> rfl
  · have hblock : (t.setContent p c).blockOverlay = t.blockOverlay := by
      rw [heq]
      rfl
    rw [content_eq, content_eq, hblock, heq, literalContent_setLiteral]
    split
    · rename_i hpq
      rw [← hpq, Overlay.contentAt?, hnone]
      rfl
    · rfl

/-- Only cells up to the cell stored get entries. -/
theorem stored_setContent (c : Content) (hp : p.Fits) (h : (t.setContent p c).Stored q) :
    t.Stored q ∨ (q.row = p.row ∧ q.col ≤ p.col) := by
  rcases setContent_cases t p c with ⟨block, -, -, heq⟩ | ⟨-, heq⟩
  · rw [heq] at h
    rcases h with h | h
    · exact .inl (.inl h)
    · rcases (Overlay.mentions_setContent _ c hp).1 h with h | rfl
      · exact .inl (.inr h)
      · exact .inr ⟨rfl, Nat.le_refl _⟩
  · rw [heq] at h
    exact stored_setLiteral c h

theorem Stored.setContent (h : t.Stored q) (c : Content) (hp : p.Fits) :
    (t.setContent p c).Stored q := by
  rcases setContent_cases t p c with ⟨block, -, -, heq⟩ | ⟨-, heq⟩
  · rw [heq]
    rcases h with h | h
    · exact .inl h
    · exact .inr ((Overlay.mentions_setContent _ c hp).2 (.inl h))
  · rw [heq]
    exact h.setLiteral p c

theorem stored_setContent_self (t : Table) (c : Content) (hp : p.Fits) :
    (t.setContent p c).Stored p := by
  rcases setContent_cases t p c with ⟨block, -, -, heq⟩ | ⟨-, heq⟩
  · rw [heq]
    exact .inr ((Overlay.mentions_setContent _ c hp).2 (.inr rfl))
  · rw [heq]
    exact .inl (by rw [literal?_setLiteral, if_pos rfl]; rfl)

theorem canonical_setContent (h : t.blockOverlay.Canonical) (p : Coord) (c : Content) :
    (t.setContent p c).blockOverlay.Canonical := by
  rcases setContent_cases t p c with ⟨block, -, -, heq⟩ | ⟨-, heq⟩
  · rw [heq]
    exact h.setContent p c
  · rw [heq]
    exact h

/-- Storing a content does not extend the rows beyond the cell stored. -/
theorem length_rows_setContent (t : Table) (p : Coord) (c : Content) :
    t.rows.length ≤ (t.setContent p c).rows.length ∧
      (t.setContent p c).rows.length ≤ max (p.row + 1) t.rows.length := by
  rcases setContent_cases t p c with ⟨block, -, -, heq⟩ | ⟨-, heq⟩
  · rw [heq]
    exact ⟨Nat.le_refl _, Nat.le_max_right _ _⟩
  · rw [heq, length_rows_setLiteral]
    exact ⟨Nat.le_max_right _ _, Nat.le_refl _⟩

theorem counts_setContent (t : Table) (p : Coord) (c : Content) :
    (t.setContent p c).rowCount = t.rowCount ∧ (t.setContent p c).colCount = t.colCount := by
  rcases setContent_cases t p c with ⟨block, -, -, heq⟩ | ⟨-, heq⟩ <;> rw [heq]
  · exact ⟨rfl, rfl⟩
  · exact ⟨rfl, rfl⟩

/-- Storing a content inside a table keeps its size. -/
theorem extent_setContent (c : Content) (hp : p.Fits) (hin : t.Contains p) :
    (t.setContent p c).extent = t.extent := by
  obtain ⟨hrow, hcol⟩ := hin
  obtain ⟨hrowCount, hcolCount⟩ := counts_setContent t p c
  obtain ⟨hgrows, hlength⟩ := length_rows_setContent t p c
  obtain ⟨hcount, hrows, -⟩ := extent_fst_le_iff.1 (Nat.le_refl t.extent.1)
  apply Prod.ext
  · apply Nat.le_antisymm
    -- The cells that are stored now lie up to `p`, which lies inside.
    · refine extent_fst_le_iff.2 ⟨by rwa [hrowCount], by omega, ?_⟩
      intro q hq
      rcases stored_setContent c hp hq with hq | ⟨hq, -⟩
      · exact hq.contains.1
      · omega
    -- Whatever was stored still is.
    · obtain ⟨hcount', hrows', -⟩ := extent_fst_le_iff.1 (Nat.le_refl (t.setContent p c).extent.1)
      exact extent_fst_le_iff.2 ⟨by rwa [hrowCount] at hcount', by omega,
        fun q hq => (hq.setContent c hp).contains.1⟩
  · apply Nat.le_antisymm
    · refine extent_snd_le_iff.2
        ⟨by rw [hcolCount]; exact (extent_snd_le_iff.1 (Nat.le_refl _)).1, ?_⟩
      intro q hq
      rcases stored_setContent c hp hq with hq | ⟨-, hq⟩
      · exact hq.contains.2
      · omega
    · refine extent_snd_le_iff.2
        ⟨by rw [← hcolCount]; exact (extent_snd_le_iff.1 (Nat.le_refl _)).1, ?_⟩
      exact fun q hq => (hq.setContent c hp).contains.2

end Table

end TableGrid
