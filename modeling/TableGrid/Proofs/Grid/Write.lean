import TableGrid.Proofs.Grid.Reshape

/-!
# Grids of tables with a content stored

Storing a content in a table writes it on one cell of the grid that is built from the table.  The
grid is extended as far as that needs, and nothing else changes.  The empty contents that fill up a
literal row hide nothing: the data block is written on top of them, and no cell that had a literal
entry gets another one.

## Key results

- `literalCell_setLiteral`: what filling up the literal rows does to single cells
- `writes_merged_setLiteral`: storing a content in the literal rows
- `writes_merged_block`: storing a content in the data block
- `writes_grid_setContent`: storing a content writes one cell of the grid
-/

namespace TableGrid

/-- Whether a grid comes from another one by writing a content on one cell, marks aside: the grid is
    extended as far as that needs, and all other cells are as before, or empty outside. -/
structure Grid.Writes (g g' : Grid) (p : Coord) (c : Content) : Prop where
  height : g'.height = max g.height (p.row + 1)
  width : g'.width = max g.width (p.col + 1)
  cell : ∀ q, (g'.cellAt q).clearMarks =
    if p = q then { (g.cellAt q).clearMarks with content := c } else (g.cellAt q).clearMarks

/-- A content may be written on a cell inside at once. -/
theorem Grid.writes_setContent {g : Grid} {p : Coord} (hin : g.contains p = true) (c : Content) :
    g.Writes (g.setContent p c) p c where
  height := by
    have := (contains_iff.1 hin).1
    rw [height_setContent]
    omega
  width := by
    have := (contains_iff.1 hin).2
    rw [width_setContent]
    omega
  cell q := by
    rw [cellAt_setContent hin]
    split <;> rfl

namespace Table

variable {t t' : Table} {options : Options} {p q : Coord} {c : Content}

/-- Resolving spans keeps what is written. -/
theorem writes_grid (h : (t.merged [] options).Writes (t'.merged [] options) p c) :
    (t.grid [] options).Writes (t'.grid [] options) p c where
  height := by
    rw [grid, grid, Grid.height_resolve, Grid.height_resolve]
    exact h.height
  width := by
    rw [grid, grid, Grid.width_resolve, Grid.width_resolve]
    exact h.width
  cell q := by
    rw [clearMarks_cellAt_grid, clearMarks_cellAt_grid]
    exact h.cell q

/-! ## The literal rows and the data block -/

/-- A table without its data block. -/
def bare (t : Table) : Table := { t with block := none }

/-- The data block is the lowest overlay. -/
theorem merged_nil_eq (t : Table) (options : Options) :
    t.merged [] options = t.bare.merged [t.blockOverlay] options := by
  have hblock : admitted t.bare.blockOverlay options = [] := by
    show admitted .empty options = []
    rw [admitted, Overlay.placements_empty]
    rfl
  rw [merged_overlay, merged_nil, merged_nil, hblock]
  rfl

/-- What the literal rows have for a cell. -/
def literalCell (t : Table) (p : Coord) : Cell :=
  ((t.literal? p).map fun entry => Cell.blank.apply entry.toPatch).getD .blank

theorem cellAt_merged_bare (t : Table) (options : Options) (p : Coord) :
    (t.bare.merged [] options).cellAt p = t.literalCell p := by
  have hwrites : t.bare.writesAt [] options p = (t.literal? p).toList.map Entry.toPatch :=
    List.append_nil _
  rw [cellAt_merged_eq, hwrites, literalCell]
  cases t.literal? p <;> rfl

/-- A cell is what the literal rows have, with the entries of the data block on top. -/
theorem cellAt_merged_nil (t : Table) (options : Options) (p : Coord) :
    (t.merged [] options).cellAt p =
      (if options.admits p then t.blockOverlay.patchesAt p else []).foldl Cell.apply
        (t.literalCell p) := by
  rw [merged_nil_eq, cellAt_merged, cellAt_merged_bare]

/-! ## Storing a content in the literal rows -/

/-- The empty contents that fill up a row leave the cells empty, and no cell before the one stored
    loses its entry. -/
theorem literalCell_setLiteral (t : Table) (p : Coord) (c : Content) (q : Coord) :
    (t.setLiteral p c).literalCell q =
      if p = q then { t.literalCell q with content := c } else t.literalCell q := by
  have hblank : Cell.blank.apply (Entry.plain .empty).toPatch = .blank :=
    Cell.apply_ofContent _ _
  have hfilled : ∀ written? : Option Entry,
      Cell.blank.apply (written?.getD (.plain .empty)).toPatch =
        (written?.map fun entry => Cell.blank.apply entry.toPatch).getD .blank := by
    intro written?
    cases written? with
    | none => exact hblank
    | some entry => rfl
  rw [literalCell, literal?_setLiteral]
  split
  · rename_i heq
    rw [Option.map_some, Option.getD_some, Cell.apply_setContent, hfilled, heq, literalCell]
  · split
    · rw [Option.map_some, Option.getD_some, hfilled, literalCell]
    · rfl

theorem declaredRows_setLiteral (t : Table) (p : Coord) (c : Content) :
    (t.setLiteral p c).declaredRows = max t.declaredRows (p.row + 1) := by
  have hcount : (t.setLiteral p c).rowCount = t.rowCount := rfl
  rw [declaredRows, declaredRows, hcount, length_rows_setLiteral]
  omega

/-- The row of the cell reaches up to it now. -/
theorem declaredCols_setLiteral (t : Table) (p : Coord) (c : Content) :
    (t.setLiteral p c).declaredCols = max t.declaredCols (p.col + 1) := by
  -- A width is enough if it is enough for every entry, the one stored and those before included.
  apply eq_of_forall_ge_iff
  intro n
  rw [Nat.max_le, declaredCols_le_iff, declaredCols_le_iff, and_assoc]
  refine and_congr_right' ?_
  simp only [literal?_setLiteral]
  constructor
  · intro hnew
    refine ⟨fun q hq => hnew q ?_, hnew p (by rw [if_pos rfl]; rfl)⟩
    split
    · rfl
    · split
      · rfl
      · exact hq
  · rintro ⟨hold, hp⟩ q hq
    split at hq
    · rename_i heq
      rwa [← heq]
    · split at hq
      · rename_i hbefore
        omega
      · exact hold q hq

/-- Where the data block has nothing for the cell, its content is stored in the literal rows. -/
theorem writes_merged_setLiteral (hnone : ¬t.blockOverlay.Mentions p) (c : Content) :
    (t.merged [] options).Writes ((t.setLiteral p c).merged [] options) p c where
  height := by
    apply eq_of_forall_ge_iff
    intro n
    rw [Nat.max_le, height_merged_nil_le_iff, height_merged_nil_le_iff, declaredRows_setLiteral,
      Nat.max_le]
    exact and_right_comm
  width := by
    apply eq_of_forall_ge_iff
    intro n
    rw [Nat.max_le, width_merged_nil_le_iff, width_merged_nil_le_iff, declaredCols_setLiteral,
      Nat.max_le]
    exact and_right_comm
  cell q := by
    have hblock : (t.setLiteral p c).blockOverlay = t.blockOverlay := rfl
    rw [cellAt_merged_nil, cellAt_merged_nil, hblock, literalCell_setLiteral]
    split
    -- Nothing of the data block is written over the content.
    · rename_i heq
      subst heq
      rw [Overlay.patchesAt_eq_nil hnone]
      split <;> rfl
    · rfl

/-! ## Storing a content in the data block -/

/-- Where the data block has an entry for the cell, its content is stored there. -/
theorem writes_merged_block {block : DataBlock} (hmentions : t.blockOverlay.Mentions p)
    (hadm : options.admits p = true) (c : Content) :
    (t.merged [] options).Writes
      ({ t with block := some { block with overlay := t.blockOverlay.setContent p c } }.merged []
        options) p c := by
  have hin : (t.bare.merged [t.blockOverlay] options).contains p = true := by
    rw [← contains_grid]
    exact contains_grid_of_mentions hmentions hadm
  rw [merged_nil_eq t, merged_nil_eq { t with block := some _ }]
  show (t.bare.merged [t.blockOverlay] options).Writes
    (t.bare.merged [t.blockOverlay.setContent p c] options) p c
  rw [merged_setContent c hadm hmentions.fits hin]
  exact Grid.writes_setContent hin c

/-! ## Storing a content -/

/-- Rows that are filled up carry nothing else than before. -/
theorem rowAlone_setContent (t : Table) (p : Coord) (c : Content) (row : Nat) :
    (t.setContent p c).rowAlone row = t.rowAlone row := by
  rcases setContent_cases t p c with ⟨block, -, -, heq⟩ | ⟨-, heq⟩
  · rw [heq]
    rfl
  · rw [heq, rowAlone, rowAlone, setLiteral, getElem?_modify_padTo]
    split
    · rfl
    · split <;> rfl

theorem columnAlone_setContent (t : Table) (p : Coord) (c : Content) (col : Nat) :
    (t.setContent p c).columnAlone col = t.columnAlone col := by
  rcases setContent_cases t p c with ⟨block, -, -, heq⟩ | ⟨-, heq⟩ <;> rw [heq] <;> rfl

/-- Storing a content for a cell within the limits, which the data block names by its address only,
    writes that content on that cell of the grid.  The grid is extended as far as it needs, the cell
    keeps whatever else it carries, all other cells are the same, new ones are empty, and rows and
    columns carry what they did. -/
theorem writes_grid_setContent (t : Table) (c : Content) (hfits : options.Fits)
    (hadm : options.admits p = true)
    (halias : ∀ key, (t.blockOverlay.get? key).isSome → Coord.ofAddress? key = .ok p →
      key = p.address) :
    (t.grid [] options).Writes ((t.setContent p c).grid [] options) p c ∧
      (∀ row, (t.setContent p c).rowAlone row = t.rowAlone row) ∧
      ∀ col, (t.setContent p c).columnAlone col = t.columnAlone col := by
  refine ⟨writes_grid ?_, rowAlone_setContent t p c, columnAlone_setContent t p c⟩
  rcases setContent_cases t p c with ⟨block, -, hsome, heq⟩ | ⟨hnone, heq⟩
  · rw [heq]
    obtain ⟨entry, hget⟩ := Option.isSome_iff_exists.1 hsome
    have hp := Options.fits_of_admits hfits hadm
    exact writes_merged_block ⟨p.address, entry, hget, Coord.ofAddress?_address hp⟩ hadm c
  · rw [heq]
    refine writes_merged_setLiteral ?_ c
    -- A key that names the cell would be its address, which has no entry.
    rintro ⟨key, entry, hget, haddr⟩
    obtain rfl := halias key (by rw [hget]; rfl) haddr
    exact Option.some_ne_none entry (hget.symm.trans hnone)

/-- A content stored behind the end of a short row, between entries of the data block. -/
theorem writes_grid_setContent_ragged :
    let overlay :=
      (Overlay.empty.insert "B2" (.plain (.text "b"))).insert "D02" (.plain (.text "d"))
    let t : Table :=
      { rows := [{ cells := [.plain (.text "x"), .plain (.text "y")] }]
        block := some { overlay } }
    let t' := t.setContent ⟨1, 2⟩ (.text "c")
    (t.grid [] {}).Writes (t'.grid [] {}) ⟨1, 2⟩ (.text "c") ∧
      ((t'.grid [] {}).cellAt ⟨1, 0⟩).content = .empty ∧
      ((t'.grid [] {}).cellAt ⟨1, 1⟩).content = .text "b" ∧
      ((t'.grid [] {}).cellAt ⟨1, 3⟩).content = .text "d" := by
  intro overlay t t'
  have halias : ∀ key, (t.blockOverlay.get? key).isSome → Coord.ofAddress? key = .ok ⟨1, 2⟩ →
      key = (⟨1, 2⟩ : Coord).address := by
    intro key hkey haddr
    have hkeys : key = "D02" ∨ key = "B2" := by
      simp only [t, overlay, blockOverlay, overlay?, Option.map_some, Option.getD_some,
        Overlay.get?_insert, Overlay.get?_empty] at hkey
      grind
    rcases hkeys with rfl | rfl
    · exact absurd haddr (by decide)
    · exact absurd haddr (by decide)
  have hfits : ({} : Options).Fits := by decide
  have hadm : ({} : Options).admits ⟨1, 2⟩ = true := by decide
  have hwrites := (writes_grid_setContent t (.text "c") hfits hadm halias).1
  exact ⟨hwrites, by decide +kernel, by decide +kernel, by decide +kernel⟩

end Table

end TableGrid
