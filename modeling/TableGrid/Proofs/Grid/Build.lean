import Mathlib.Data.Nat.Basic
import Mathlib.Order.Basic
import TableGrid.Grid.Build
import TableGrid.Proofs.Cell.Attribute
import TableGrid.Proofs.Grid.Cells
import TableGrid.Proofs.Grid.Shape
import TableGrid.Proofs.Table.Content

/-!
# Building grids

The grid of a table with an overlay on top is the grid without it, with the patches of the
overlay written onto it.  The entry under the address of a cell is written last, so a content
recorded in the overlay can be written into the finished grid instead.

## Key results

- `merged_append`: an overlay is written onto what is below it
- `height_merged_append_le_iff`, `width_merged_append_le_iff`: the size of a grid
- `cellAt_merged_append`: what is written on one cell
- `cellAt_merged_insert`, `merged_insert`: an entry put under the address of a cell changes that
  cell only
- `merged_setContent_of_skipped`: beyond the limits recording a content changes nothing
- `grid_setContent`: recording a content and building again changes one content of the grid
- `map_shape_grid_setContent`: it keeps the shape of the grid in any case
- `content_of_overlay`: the content of an entry is the one shown
-/

namespace TableGrid

/-! ## Patches on a cell -/

namespace Cell

theorem apply_empty (cell : Cell) : cell.apply .empty = cell := by
  rw [apply]
  simp only [Patch.empty, Option.getD_none, Option.none_or, Attributes.merge_empty]

/-- The patch of a bare content sets the content. -/
theorem apply_ofContent (cell : Cell) (c : Content) :
    cell.apply (.ofContent c) = { cell with content := c } := by
  simp only [apply, Patch.ofContent, Option.getD_some, Option.none_or]
  congr 1
  exact Attributes.merge_empty _

/-- Replacing the content of an entry replaces the content it writes. -/
theorem apply_setContent (cell : Cell) (c : Content) (entry : Entry) :
    cell.apply (entry.setContent c).toPatch =
      { cell.apply entry.toPatch with content := c } := by
  cases entry with
  | styled patch => rfl
  | plain c' => rw [Entry.setContent, Entry.toPatch, Entry.toPatch, apply_ofContent,
      apply_ofContent]

/-- Recording a content replaces the content that the entry writes, or writes one where there was no
    entry. -/
theorem apply_recorded (cell : Cell) (c : Content) (written? : Option Entry) :
    cell.apply ((written?.map (Entry.setContent c)).getD (.plain c)).toPatch =
      { (written?.toList.map Entry.toPatch).foldl Cell.apply cell with content := c } := by
  cases written? with
  | none => exact apply_ofContent cell c
  | some entry => exact apply_setContent cell c entry

theorem content_apply (cell : Cell) (entry : Entry) :
    (cell.apply entry.toPatch).content = entry.content?.getD cell.content := by
  cases entry <;> rfl

end Cell

/-- Resolving spans changes nothing but the marks of a cell. -/
theorem Grid.clearMarks_cellAt_resolve (g : Grid) (p : Coord) :
    (g.resolve.cellAt p).clearMarks = (g.cellAt p).clearMarks := by
  have h := congrArg (·.get? p) (Grid.map_clearMarks_resolve g)
  simp only [Grid.get?_map] at h
  rw [Grid.cellAt, Grid.cellAt]
  cases hl : g.resolve.get? p with
  | none =>
    rw [hl, Option.map_none] at h
    rw [Option.map_eq_none_iff.1 h.symm]
  | some cell =>
    rw [hl, Option.map_some] at h
    obtain ⟨cell', hr, hclear⟩ := Option.map_eq_some_iff.1 h.symm
    rw [hr]
    exact hclear.symm

namespace Table

variable {t : Table} {lower : List Overlay} {o : Overlay} {options : Options} {p : Coord}

/-! ## Literal cells -/

/-- Of the literal cells, one at most is written on a coordinate. -/
theorem patches_literalPlacements (t : Table) (p : Coord) :
    (t.literalPlacements.filter fun write => write.1 = p).map (·.2) =
      (t.literal? p).toList.map Entry.toPatch := by
  obtain ⟨row, col⟩ := p
  -- The writes of one row on the coordinate.
  have hrow : ∀ a : Row × Nat,
      (a.1.cells.zipIdx.map fun b => ((⟨a.2, b.2⟩ : Coord), b.1.toPatch)).filter
        (fun write => write.1 = ⟨row, col⟩) =
      if a.2 = row then (a.1.cells[col]?.map fun entry =>
        ((⟨row, col⟩ : Coord), entry.toPatch)).toList else [] := by
    rintro ⟨r, y⟩
    rw [List.filter_map]
    split
    · rename_i hy
      simp only at hy
      subst hy
      have hcol : ((fun write : Coord × Patch => decide (write.1 = ⟨y, col⟩)) ∘
          fun b : Entry × Nat => ((⟨y, b.2⟩ : Coord), b.1.toPatch)) =
          fun b => decide (b.2 = col) := by
        funext b
        simp
      rw [hcol, List.filter_zipIdx]
      cases r.cells[col]? <;> rfl
    · rename_i hy
      simp only at hy
      rw [List.map_eq_nil_iff, List.filter_eq_nil_iff]
      rintro ⟨entry, x⟩ -
      simp [hy]
  -- Rows other than that of the coordinate contribute nothing.
  have hrows : t.literalPlacements.filter (fun write => write.1 = ⟨row, col⟩) =
      (t.rows.zipIdx.filter fun a => a.2 = row).flatMap fun a =>
        if a.2 = row then (a.1.cells[col]?.map fun entry =>
          ((⟨row, col⟩ : Coord), entry.toPatch)).toList else [] := by
    rw [List.flatMap_filter_of_nil fun a ha => if_neg (of_decide_eq_false ha), literalPlacements,
      List.filter_flatMap]
    exact congrArg (List.flatMap · _) (funext hrow)
  rw [hrows, List.filter_zipIdx, literal?]
  cases t.rows[row]? with
  | none => rfl
  | some r =>
    simp only [Option.map_some, Option.toList_some, List.flatMap_cons, List.flatMap_nil,
      List.append_nil, if_true, Option.bind_some]
    cases r.cells[col]? <;> rfl

/-- Literal cells lie inside what the table declares. -/
theorem lt_declared_of_mem {patch : Patch} (h : (p, patch) ∈ t.literalPlacements) :
    p.row < t.declaredRows ∧ p.col < t.declaredCols := by
  have hmem : patch ∈ (t.literalPlacements.filter fun write => write.1 = p).map (·.2) :=
    List.mem_map.2 ⟨(p, patch), List.mem_filter.2 ⟨h, by simp⟩, rfl⟩
  rw [patches_literalPlacements, List.mem_map] at hmem
  obtain ⟨entry, hentry, -⟩ := hmem
  have hsome : (t.literal? p).isSome := by
    rw [Option.mem_toList.1 hentry]
    rfl
  have hrow := row_lt_of_literal? hsome
  have hrows := (declaredRows_le_iff.1 (Nat.le_refl t.declaredRows)).2
  exact ⟨by omega, (declaredCols_le_iff.1 (Nat.le_refl _)).2 p hsome⟩

/-! ## The grid before spans are resolved -/

/-- The patches of an overlay that the options admit. -/
def admitted (o : Overlay) (options : Options) : List (Coord × Patch) :=
  o.placements.filter fun write => options.admits write.1

/-- An overlay is written onto what is below it. -/
theorem merged_append (t : Table) (lower : List Overlay) (o : Overlay) (options : Options) :
    t.merged (lower ++ [o]) options = (t.merged lower options).placeAll (admitted o options) := by
  have hwrites : t.placements (lower ++ [o]) options =
      t.placements lower options ++ admitted o options := by
    simp [placements, admitted]
  rw [merged, hwrites, List.foldl_append]
  rfl

theorem merged_overlay (t : Table) (o : Overlay) (options : Options) :
    t.merged [o] options = (t.merged [] options).placeAll (admitted o options) :=
  merged_append t [] o options

theorem patches_admitted (o : Overlay) (options : Options) (p : Coord) :
    ((admitted o options).filter fun write => write.1 = p).map (·.2) =
      if options.admits p then o.patchesAt p else [] := by
  rw [admitted, List.filter_filter, Overlay.patchesAt]
  split
  · rename_i hp
    congr 1
    apply List.filter_congr
    rintro ⟨q, patch⟩ -
    by_cases heq : q = p <;> simp [heq, hp]
  · rename_i hp
    rw [List.map_eq_nil_iff, List.filter_eq_nil_iff]
    rintro ⟨q, patch⟩ - h
    simp only [Bool.and_eq_true, decide_eq_true_eq] at h
    obtain ⟨rfl, hq⟩ := h
    exact hp hq

theorem mem_admitted_iff {f : Coord → Prop} :
    (∀ write ∈ admitted o options, f write.1) ↔
      ∀ p, o.Mentions p → options.admits p = true → f p := by
  constructor
  · intro h p hp hadm
    obtain ⟨patch, hmem⟩ := Overlay.mentions_iff.1 hp
    exact h (p, patch) (List.mem_filter.2 ⟨hmem, hadm⟩)
  · rintro h ⟨p, patch⟩ hmem
    obtain ⟨hmem, hadm⟩ := List.mem_filter.1 hmem
    exact h p (Overlay.mentions_iff.2 ⟨patch, hmem⟩) hadm

/-- The height of a grid is the least one that reaches what is below and all entries. -/
theorem height_merged_append_le_iff {n : Nat} :
    (t.merged (lower ++ [o]) options).height ≤ n ↔ (t.merged lower options).height ≤ n ∧
      ∀ p, o.Mentions p → options.admits p = true → p.row < n := by
  rw [merged_append, Grid.height_placeAll_le_iff,
    mem_admitted_iff (f := fun p => p.row < n)]

theorem height_merged_le_iff {n : Nat} :
    (t.merged [o] options).height ≤ n ↔ (t.merged [] options).height ≤ n ∧
      ∀ p, o.Mentions p → options.admits p = true → p.row < n :=
  @height_merged_append_le_iff t [] o options n

/-- The width of a grid is the least one that reaches what is below and all entries. -/
theorem width_merged_append_le_iff {n : Nat} :
    (t.merged (lower ++ [o]) options).width ≤ n ↔ (t.merged lower options).width ≤ n ∧
      ∀ p, o.Mentions p → options.admits p = true → p.col < n := by
  rw [merged_append, Grid.width_placeAll_le_iff,
    mem_admitted_iff (f := fun p => p.col < n)]

theorem width_merged_le_iff {n : Nat} :
    (t.merged [o] options).width ≤ n ↔ (t.merged [] options).width ≤ n ∧
      ∀ p, o.Mentions p → options.admits p = true → p.col < n :=
  @width_merged_append_le_iff t [] o options n

/-- The table without overlays is its literal cells with the data block on top. -/
theorem merged_nil (t : Table) (options : Options) :
    t.merged [] options =
      ((Grid.blank t.declaredRows t.declaredCols).placeAll t.literalPlacements).placeAll
        (admitted t.blockOverlay options) := by
  have hwrites : t.placements [] options =
      t.literalPlacements ++ admitted t.blockOverlay options := by
    cases h : t.overlay? <;> simp [placements, admitted, blockOverlay, h]
  rw [merged, hwrites, List.foldl_append]
  rfl

theorem height_merged_nil_le_iff {n : Nat} :
    (t.merged [] options).height ≤ n ↔ t.declaredRows ≤ n ∧
      ∀ p, t.blockOverlay.Mentions p → options.admits p = true → p.row < n := by
  rw [merged_nil, Grid.height_placeAll_le_iff, Grid.height_placeAll_le_iff, Grid.height_blank,
    mem_admitted_iff (f := fun p => p.row < n)]
  refine and_congr_left' (and_iff_left_of_imp ?_)
  rintro hle ⟨p, patch⟩ hmem
  have := (lt_declared_of_mem hmem).1
  simp only
  omega

theorem width_merged_nil_le_iff {n : Nat} :
    (t.merged [] options).width ≤ n ↔ t.declaredCols ≤ n ∧
      ∀ p, t.blockOverlay.Mentions p → options.admits p = true → p.col < n := by
  rw [merged_nil, Grid.width_placeAll_le_iff, Grid.width_placeAll_le_iff, Grid.width_blank,
    mem_admitted_iff (f := fun p => p.col < n)]
  refine and_congr_left' (and_iff_left_of_imp ?_)
  rintro hle ⟨p, patch⟩ hmem
  have := (lt_declared_of_mem hmem).2
  simp only
  omega

/-- A grid stays within the limits if what the table declares does. -/
theorem admits_of_contains (hrows : t.declaredRows ≤ options.maxRows)
    (hcols : t.declaredCols ≤ options.maxCols) (hin : (t.grid [o] options).contains p = true) :
    options.admits p = true := by
  have hadmits : ∀ q, options.admits q = true ↔
      q.row < options.maxRows ∧ q.col < options.maxCols := by
    intro q
    simp [Options.admits]
  -- Entries beyond the limits are skipped, so the grid cannot grow beyond them either.
  have hheight : (t.grid [o] options).height ≤ options.maxRows := by
    rw [grid, Grid.height_resolve, height_merged_le_iff, height_merged_nil_le_iff]
    exact ⟨⟨hrows, fun q _ hq => ((hadmits q).1 hq).1⟩, fun q _ hq => ((hadmits q).1 hq).1⟩
  have hwidth : (t.grid [o] options).width ≤ options.maxCols := by
    rw [grid, Grid.width_resolve, width_merged_le_iff, width_merged_nil_le_iff]
    exact ⟨⟨hcols, fun q _ hq => ((hadmits q).1 hq).2⟩, fun q _ hq => ((hadmits q).1 hq).2⟩
  rw [Grid.contains_iff] at hin
  exact (hadmits p).2 ⟨by omega, by omega⟩

/-- An entry is skipped if its key names a cell beyond the limits, or none. -/
theorem admitted_erase {key : String}
    (hskip : ∀ q, Coord.ofAddress? key = .ok q → options.admits q = false) :
    admitted (o.erase key) options = admitted o options := by
  rw [admitted, admitted, Overlay.placements, Overlay.placements, Overlay.toList_erase,
    List.filterMap_filter, List.filter_filterMap, List.filter_filterMap]
  apply List.filterMap_congr
  rintro ⟨key', entry⟩ -
  by_cases heq : key' = key
  · rw [heq]
    cases haddr : Coord.ofAddress? key with
    | error fault => simp [haddr]
    | ok q => simp [haddr, Option.filter, hskip q haddr]
  · simp [heq]

/-- A content recorded for a cell beyond the limits does not change the grid. -/
theorem merged_setContent_of_skipped (c : Content) (hskip : options.admits p = true → ¬p.Fits) :
    t.merged [o.setContent p c] options = t.merged [o] options := by
  have hkey : ∀ q, Coord.ofAddress? p.address = .ok q → options.admits q = false := by
    intro q hq
    obtain rfl := Coord.eq_of_ofAddress?_address hq
    exact Bool.eq_false_iff.2 fun hadm => hskip hadm (Coord.spelling_of_ofAddress? hq).1
  have hadmitted : admitted (o.setContent p c) options = admitted o options := by
    rw [Overlay.setContent_eq, ← admitted_erase hkey, Overlay.erase_insert, admitted_erase hkey]
  rw [merged_overlay, merged_overlay, hadmitted]

/-- A cell takes up what the overlay writes on it, if the options admit that. -/
theorem cellAt_merged_append (t : Table) (lower : List Overlay) (o : Overlay) (options : Options)
    (p : Coord) :
    (t.merged (lower ++ [o]) options).cellAt p =
      (if options.admits p then o.patchesAt p else []).foldl Cell.apply
        ((t.merged lower options).cellAt p) := by
  rw [merged_append, Grid.cellAt_placeAll, patches_admitted]

theorem cellAt_merged (t : Table) (o : Overlay) (options : Options) (p : Coord) :
    (t.merged [o] options).cellAt p =
      (if options.admits p then o.patchesAt p else []).foldl Cell.apply
        ((t.merged [] options).cellAt p) :=
  cellAt_merged_append t [] o options p

/-! ## Entries under the address of a cell -/

/-- The entry under the address of a cell is written last, over the aliases. -/
theorem cellAt_merged_append_of_admits (hadm : options.admits p = true) (hfits : p.Fits) :
    (t.merged (lower ++ [o]) options).cellAt p =
      ((o.getAt? p).toList.map Entry.toPatch).foldl Cell.apply
        (((o.erase p.address).patchesAt p).foldl Cell.apply
          ((t.merged lower options).cellAt p)) := by
  rw [cellAt_merged_append, if_pos hadm, Overlay.patchesAt_eq o hfits, List.foldl_append]

/-- An entry put under the address of a cell changes that cell only, and in the way in which the
    entry differs from the one before. -/
theorem cellAt_merged_insert {entry : Entry} {f : Cell → Cell} (hadm : options.admits p = true)
    (hfits : p.Fits)
    (hentry : ∀ below : Cell, below.apply entry.toPatch =
      f (((o.getAt? p).toList.map Entry.toPatch).foldl Cell.apply below)) (q : Coord) :
    (t.merged (lower ++ [o.insert p.address entry]) options).cellAt q =
      if p = q then f ((t.merged (lower ++ [o]) options).cellAt q)
      else (t.merged (lower ++ [o]) options).cellAt q := by
  split
  · rename_i heq
    subst heq
    have hget : (o.insert p.address entry).getAt? p = some entry := by
      rw [Overlay.getAt?, Overlay.get?_insert, if_pos rfl]
    -- The aliases are the same, and the new entry comes after them.
    rw [cellAt_merged_append_of_admits hadm hfits, cellAt_merged_append_of_admits hadm hfits, hget,
      Overlay.erase_insert]
    exact hentry _
  · rename_i hne
    rw [cellAt_merged_append, cellAt_merged_append,
      Overlay.patchesAt_insert o entry (Overlay.names_address_of_ne hne)]

/-- An entry under the address of a cell lets a size grow as far as that cell needs, if it is the
    least one to reach all entries. -/
theorem size_merged_insert {size : Grid → Nat} {index : Coord → Nat} (entry : Entry)
    (hadm : options.admits p = true) (hfits : p.Fits)
    (hsize : ∀ (o : Overlay) (n : Nat), size (t.merged (lower ++ [o]) options) ≤ n ↔
      size (t.merged lower options) ≤ n ∧
        ∀ q, o.Mentions q → options.admits q = true → index q < n) :
    size (t.merged (lower ++ [o.insert p.address entry]) options) =
      max (size (t.merged (lower ++ [o]) options)) (index p + 1) := by
  refine eq_of_forall_ge_iff fun n => ?_
  rw [Nat.max_le, hsize, hsize, and_assoc]
  refine and_congr_right' ?_
  simp only [Overlay.mentions_insert o entry hfits]
  constructor
  · exact fun hall => ⟨fun q hq => hall q (.inl hq), hall p (.inr rfl) hadm⟩
  · rintro ⟨hold, hp⟩ q (hq | rfl) hadmq
    · exact hold q hq hadmq
    · exact hp

theorem height_merged_insert (entry : Entry) (hadm : options.admits p = true) (hfits : p.Fits) :
    (t.merged (lower ++ [o.insert p.address entry]) options).height =
      max (t.merged (lower ++ [o]) options).height (p.row + 1) :=
  size_merged_insert entry hadm hfits fun _ _ => height_merged_append_le_iff

theorem width_merged_insert (entry : Entry) (hadm : options.admits p = true) (hfits : p.Fits) :
    (t.merged (lower ++ [o.insert p.address entry]) options).width =
      max (t.merged (lower ++ [o]) options).width (p.col + 1) :=
  size_merged_insert entry hadm hfits fun _ _ => width_merged_append_le_iff

/-- An entry put under the address of a cell inside changes that cell of the grid and nothing
    else. -/
theorem merged_insert {entry : Entry} {f : Cell → Cell} (hadm : options.admits p = true)
    (hfits : p.Fits)
    (hentry : ∀ below : Cell, below.apply entry.toPatch =
      f (((o.getAt? p).toList.map Entry.toPatch).foldl Cell.apply below))
    (hin : (t.merged [o] options).contains p = true) :
    t.merged [o.insert p.address entry] options = (t.merged [o] options).modify p f := by
  obtain ⟨hrow, hcol⟩ := Grid.contains_iff.1 hin
  -- The size is the same, and so are all cells but one.
  apply Grid.ext_cellAt
  · rw [Grid.height_modify]
    exact (@height_merged_insert t [] o options p entry hadm hfits).trans (Nat.max_eq_left hrow)
  · rw [Grid.width_modify]
    exact (@width_merged_insert t [] o options p entry hadm hfits).trans (Nat.max_eq_left hcol)
  · intro q _
    rw [Grid.cellAt_modify hin]
    exact @cellAt_merged_insert t [] o options p entry f hadm hfits hentry q

/-! ## Contents -/

/-- Recording a content for a cell inside writes it on that cell. -/
theorem merged_setContent (c : Content) (hadm : options.admits p = true) (hfits : p.Fits)
    (hin : (t.merged [o] options).contains p = true) :
    t.merged [o.setContent p c] options = (t.merged [o] options).setContent p c := by
  rw [Overlay.setContent_eq]
  exact merged_insert hadm hfits (fun below => Cell.apply_recorded below c (o.getAt? p)) hin

/-- Resolving spans does not change the size. -/
theorem contains_grid (t : Table) (overlays : List Overlay) (options : Options) (p : Coord) :
    (t.grid overlays options).contains p = (t.merged overlays options).contains p := by
  rw [grid, Grid.contains, Grid.contains, Grid.height_resolve, Grid.width_resolve]

/-- A grid reaches every cell within the limits that the overlay mentions. -/
theorem contains_grid_of_mentions (hp : o.Mentions p) (hadm : options.admits p = true) :
    (t.grid [o] options).contains p = true := by
  rw [contains_grid]
  exact Grid.contains_iff.2 ⟨(height_merged_le_iff.1 (Nat.le_refl _)).2 p hp hadm,
    (width_merged_le_iff.1 (Nat.le_refl _)).2 p hp hadm⟩

/-- Recording a content in the overlay and building again writes it into the grid. -/
theorem grid_setContent (c : Content) (hadm : options.admits p = true) (hfits : p.Fits)
    (hin : (t.grid [o] options).contains p = true) :
    t.grid [o.setContent p c] options = (t.grid [o] options).setContent p c := by
  rw [contains_grid] at hin
  rw [grid, grid, merged_setContent c hadm hfits hin, Grid.resolve_setContent]

/-- Recording a content for a cell inside keeps the shape, whether its entry is written or skipped
    when the grid is built. -/
theorem map_shape_merged_setContent (c : Content)
    (hin : (t.merged [o] options).contains p = true) :
    (t.merged [o.setContent p c] options).map Cell.shape =
      (t.merged [o] options).map Cell.shape := by
  by_cases hwritten : options.admits p = true ∧ p.Fits
  · rw [merged_setContent c hwritten.1 hwritten.2 hin, Grid.map_shape_setContent]
  · rw [merged_setContent_of_skipped c (not_and.1 hwritten)]

/-- Recording a content for a cell inside and building again keeps the shape of the grid. -/
theorem map_shape_grid_setContent (c : Content) (hin : (t.grid [o] options).contains p = true) :
    (t.grid [o.setContent p c] options).map Cell.shape = (t.grid [o] options).map Cell.shape := by
  rw [contains_grid] at hin
  rw [grid, grid, ← Grid.resolve_map_shape, map_shape_merged_setContent c hin,
    Grid.resolve_map_shape]

theorem clearMarks_cellAt_grid (t : Table) (overlays : List Overlay) (options : Options)
    (p : Coord) :
    ((t.grid overlays options).cellAt p).clearMarks =
      ((t.merged overlays options).cellAt p).clearMarks :=
  Grid.clearMarks_cellAt_resolve (t.merged overlays options) p

/-- Resolving spans keeps contents. -/
theorem content_cellAt_grid (t : Table) (overlays : List Overlay) (options : Options)
    (p : Coord) :
    ((t.grid overlays options).cellAt p).content =
      ((t.merged overlays options).cellAt p).content := by
  have h := congrArg Cell.content (clearMarks_cellAt_grid t overlays options p)
  exact h

/-- The content that an entry of the overlay carries is shown. -/
theorem content_of_overlay {c : Content} (hadm : options.admits p = true) (hfits : p.Fits)
    (hc : o.contentAt? p = some c) :
    ((t.grid [o] options).cellAt p).content = c := by
  obtain ⟨entry, hget, hcontent⟩ := Option.bind_eq_some_iff.1 hc
  have hlast := @cellAt_merged_append_of_admits t [] o options p hadm hfits
  rw [hget] at hlast
  rw [content_cellAt_grid]
  exact (congrArg Cell.content hlast).trans
    ((Cell.content_apply _ entry).trans (by rw [hcontent]; rfl))

end Table

end TableGrid
