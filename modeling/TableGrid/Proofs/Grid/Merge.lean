import TableGrid.Proofs.Grid.Build

/-!
# The last writer wins

A grid is as large as the table and the entries within the limits need it to be, and each of its
cells carries, field by field and attribute by attribute, what was written there last.

## Key results

- `merged_eq`: a grid is the literal cells with the layers of entries on top of them
- `last?_foldl_apply`: a field of a cell after a list of patches
- `grid_lastWriter`: the size and the cells of a grid
-/

namespace TableGrid

namespace Patch

/-- The last value that a list of patches has for a field. -/
def last? {α : Type} (patches : List Patch) (field : Patch → Option α) : Option α :=
  (patches.filterMap field).getLast?

/-- A field that each patch overwrites if it has a value for it ends up with the last one. -/
theorem last?_foldl_apply {α : Type} (view : Cell → Option α) {field : Patch → Option α}
    (happly : ∀ cell patch, view (cell.apply patch) = (field patch).or (view cell))
    (patches : List Patch) (cell : Cell) :
    view (patches.foldl Cell.apply cell) = (last? patches field).or (view cell) := by
  induction patches generalizing cell with
  | nil => rfl
  | cons patch patches ih =>
    rw [List.foldl_cons, ih, happly, last?, last?, List.filterMap_cons]
    cases field patch with
    | none => rfl
    | some value =>
      -- Only what comes later can overwrite the value.
      rw [List.getLast?_cons]
      cases (patches.filterMap field).getLast? <;> rfl

end Patch

/-- A cell always has a content: the last one written on it, or else the one it had. -/
theorem Cell.content_foldl_apply (patches : List Patch) (cell : Cell) :
    (patches.foldl Cell.apply cell).content =
      (Patch.last? patches Patch.content).getD cell.content := by
  have h := Patch.last?_foldl_apply (fun cell => some cell.content)
    (fun cell patch => show _ = (Patch.content patch).or _ by
      cases h : patch.content <;> simp [Cell.apply, h]) patches cell
  apply Option.some.inj
  rw [h]
  cases Patch.last? patches Patch.content <;> rfl

/-- Whether a cell carries, field by field and attribute by attribute, the last value that a list of
    patches has for it. -/
structure Cell.CarriesLast (cell : Cell) (patches : List Patch) : Prop where
  content : cell.content = (Patch.last? patches Patch.content).getD .empty
  colspan : cell.colspan = Patch.last? patches Patch.colspan
  rowspan : cell.rowspan = Patch.last? patches Patch.rowspan
  id : cell.id = Patch.last? patches Patch.id
  property : ∀ key, cell.attributes.get? key = Patch.last? patches (·.attributes.get? key)
  extra : ∀ name : String, cell.attributes.extra[name]? =
    Patch.last? patches fun patch => patch.attributes.extra[name]?

namespace Attributes

theorem get?_merge (lower upper : Attributes) (key : Property) :
    (lower.merge upper).get? key = (upper.get? key).or (lower.get? key) :=
  Std.ExtTreeMap.getElem?_union

theorem getElem?_extra_merge (lower upper : Attributes) (name : String) :
    (lower.merge upper).extra[name]? = upper.extra[name]?.or lower.extra[name]? :=
  Std.ExtTreeMap.getElem?_union

theorem get?_empty (key : Property) : empty.get? key = none := Std.ExtTreeMap.getElem?_empty

theorem getElem?_extra_empty (name : String) : empty.extra[name]? = none :=
  Std.ExtTreeMap.getElem?_empty

end Attributes

/-- An empty cell that takes up patches carries what was written last. -/
theorem Cell.carriesLast_foldl_apply (patches : List Patch) :
    (patches.foldl Cell.apply .blank).CarriesLast patches where
  content := Cell.content_foldl_apply patches .blank
  colspan := by
    rw [Patch.last?_foldl_apply Cell.colspan (fun _ _ => rfl)]
    exact Option.or_none
  rowspan := by
    rw [Patch.last?_foldl_apply Cell.rowspan (fun _ _ => rfl)]
    exact Option.or_none
  id := by
    rw [Patch.last?_foldl_apply Cell.id (fun _ _ => rfl)]
    exact Option.or_none
  property key := by
    rw [Patch.last?_foldl_apply (fun cell => cell.attributes.get? key)
      fun cell patch => Attributes.get?_merge _ _ key]
    exact (congrArg (Option.or _) (Attributes.get?_empty key)).trans Option.or_none
  extra name := by
    rw [Patch.last?_foldl_apply (fun cell => cell.attributes.extra[name]?)
      fun cell patch => Attributes.getElem?_extra_merge _ _ name]
    exact (congrArg (Option.or _) (Attributes.getElem?_extra_empty name)).trans Option.or_none

/-- Marks do not matter for what a cell carries. -/
theorem Cell.CarriesLast.of_clearMarks {cell cell' : Cell} {patches : List Patch}
    (h : cell.CarriesLast patches) (heq : cell'.clearMarks = cell.clearMarks) :
    cell'.CarriesLast patches where
  content := (congrArg Cell.content heq).trans h.content
  colspan := (congrArg Cell.colspan heq).trans h.colspan
  rowspan := (congrArg Cell.rowspan heq).trans h.rowspan
  id := (congrArg Cell.id heq).trans h.id
  property key := (congrArg (·.attributes.get? key) heq).trans (h.property key)
  extra name := (congrArg (·.attributes.extra[name]?) heq).trans (h.extra name)

namespace Overlay

variable {o : Overlay} {options : Options}

/-- The coordinate that a key names, if it lies within the limits. -/
def target? (options : Options) (key : String) : Option Coord :=
  (Coord.ofAddress? key).toOption.filter options.admits

/-- The coordinates within the limits that keys name, in the order of the keys. -/
def reached (o : Overlay) (options : Options) : List Coord :=
  o.toList.filterMap fun entry => target? options entry.1

/-- The overlay without the entries whose keys name no cell within the limits. -/
def restrict (o : Overlay) (options : Options) : Overlay :=
  ⟨o.entries.filter fun key _ => (target? options key).isSome⟩

/-- What is written on a cell within the limits, in the order of the keys. -/
def writesAt (o : Overlay) (options : Options) (p : Coord) : List Patch :=
  (o.toList.filter fun entry => target? options entry.1 = some p).map (·.2.toPatch)

theorem admitted_eq (o : Overlay) (options : Options) :
    Table.admitted o options = o.toList.filterMap fun entry =>
      (target? options entry.1).map fun p => (p, entry.2.toPatch) := by
  rw [Table.admitted, placements, List.filter_filterMap]
  apply List.filterMap_congr
  rintro ⟨key, entry⟩ -
  cases haddr : Coord.ofAddress? key with
  | error fault => simp [target?, haddr, Except.toOption]
  | ok p =>
    cases hadm : options.admits p <;>
      simp [target?, haddr, Except.toOption, Option.filter, hadm]

theorem map_fst_admitted (o : Overlay) (options : Options) :
    (Table.admitted o options).map (·.1) = o.reached options := by
  rw [admitted_eq, List.map_filterMap, reached]
  apply List.filterMap_congr
  rintro ⟨key, entry⟩ -
  cases target? options key <;> rfl

theorem map_snd_admitted (o : Overlay) (options : Options) (p : Coord) :
    ((Table.admitted o options).filter fun write => write.1 = p).map (·.2) =
      o.writesAt options p := by
  rw [admitted_eq, List.filter_filterMap, List.map_filterMap, writesAt, ← List.filterMap_eq_map,
    List.filterMap_filter]
  apply List.filterMap_congr
  rintro ⟨key, entry⟩ -
  cases target? options key with
  | none => rfl
  | some q => by_cases h : q = p <;> simp [Option.filter, h]

/-- Entries that name no cell within the limits are not written anywhere. -/
theorem admitted_restrict (o : Overlay) (options : Options) :
    Table.admitted (o.restrict options) options = Table.admitted o options := by
  have hlist : (o.restrict options).toList =
      o.toList.filter fun entry => (target? options entry.1).isSome :=
    Std.ExtTreeMap.toList_filter
  rw [admitted_eq, admitted_eq, hlist, List.filterMap_filter]
  apply List.filterMap_congr
  rintro ⟨key, entry⟩ -
  cases target? options key <;> rfl

end Overlay

namespace Table

variable {t : Table} {overlays : List Overlay} {options : Options} {p : Coord}

/-- The overlays that are written onto the literal cells: the data block, then the others. -/
def layers (t : Table) (overlays : List Overlay) : List Overlay := t.overlay?.toList ++ overlays

/-- What is written on a cell, in the order of writing: its literal entry, then layer by layer and
    key by key the entries that name it. -/
def writesAt (t : Table) (overlays : List Overlay) (options : Options) (p : Coord) : List Patch :=
  (t.literal? p).toList.map Entry.toPatch ++
    (t.layers overlays).flatMap fun o => o.writesAt options p

/-- The table without the entries of its data block whose keys name no cell within the limits. -/
def restrict (t : Table) (options : Options) : Table :=
  { t with block := t.block.map fun b => { b with overlay := b.overlay.restrict options } }

/-! ## The grid before spans are resolved -/

/-- A grid is the literal cells with the layers of entries on top of them. -/
theorem merged_eq (t : Table) (overlays : List Overlay) (options : Options) :
    t.merged overlays options =
      ((Grid.blank t.declaredRows t.declaredCols).placeAll t.literalPlacements).placeAll
        ((t.layers overlays).flatMap fun o => admitted o options) := by
  rw [merged, placements, List.foldl_append]
  rfl

theorem cellAt_merged_eq (t : Table) (overlays : List Overlay) (options : Options) (p : Coord) :
    (t.merged overlays options).cellAt p =
      (t.writesAt overlays options p).foldl Cell.apply .blank := by
  rw [merged_eq, Grid.cellAt_placeAll, Grid.cellAt_placeAll, patches_literalPlacements,
    Grid.cellAt_blank, writesAt, List.foldl_append, List.filter_flatMap, List.map_flatMap]
  simp only [Overlay.map_snd_admitted]

/-- The height is the least one that reaches what is declared and all entries within the limits. -/
theorem height_merged_eq (t : Table) (overlays : List Overlay) (options : Options) :
    (t.merged overlays options).height =
      ((t.layers overlays).flatMap fun o => o.reached options).foldl
        (fun rows p => max rows (p.row + 1)) t.declaredRows := by
  refine eq_of_forall_ge_iff fun n => ?_
  -- Literal cells lie inside what is declared, so only the layers can let the grid grow.
  have hliteral : t.declaredRows ≤ n → ∀ write ∈ t.literalPlacements, write.1.row < n := by
    rintro hle ⟨p, patch⟩ hmem
    exact Nat.lt_of_lt_of_le (lt_declared_of_mem hmem).1 hle
  rw [merged_eq, Grid.height_placeAll_le_iff, Grid.height_placeAll_le_iff, Grid.height_blank,
    and_iff_left_of_imp hliteral, List.foldl_max_le_iff]
  simp only [← Overlay.map_fst_admitted, ← List.map_flatMap, List.forall_mem_map]
  rfl

/-- The width is the least one that reaches what is declared and all entries within the limits. -/
theorem width_merged_eq (t : Table) (overlays : List Overlay) (options : Options) :
    (t.merged overlays options).width =
      ((t.layers overlays).flatMap fun o => o.reached options).foldl
        (fun cols p => max cols (p.col + 1)) t.declaredCols := by
  refine eq_of_forall_ge_iff fun n => ?_
  have hliteral : t.declaredCols ≤ n → ∀ write ∈ t.literalPlacements, write.1.col < n := by
    rintro hle ⟨p, patch⟩ hmem
    exact Nat.lt_of_lt_of_le (lt_declared_of_mem hmem).2 hle
  rw [merged_eq, Grid.width_placeAll_le_iff, Grid.width_placeAll_le_iff, Grid.width_blank,
    and_iff_left_of_imp hliteral, List.foldl_max_le_iff]
  simp only [← Overlay.map_fst_admitted, ← List.map_flatMap, List.forall_mem_map]
  rfl

/-- Entries that name no cell within the limits do not matter. -/
theorem merged_restrict (t : Table) (overlays : List Overlay) (options : Options) :
    (t.restrict options).merged (overlays.map (·.restrict options)) options =
      t.merged overlays options := by
  have hlayers : (t.restrict options).layers (overlays.map (·.restrict options)) =
      (t.layers overlays).map (·.restrict options) := by
    rw [layers, layers, List.map_append, overlay?, overlay?, restrict]
    cases t.block <;> rfl
  rw [merged_eq, merged_eq, hlayers, List.flatMap_map]
  simp only [Overlay.admitted_restrict]
  rfl

/-! ## The grid -/

/-- A grid is as large as the table and the entries within the limits need it to be.  Each cell
    carries the last value of every field and attribute that is written there: by its literal entry,
    then layer by layer and key by key.  Entries whose keys name no cell within the limits do not
    matter at all. -/
theorem grid_lastWriter (t : Table) (overlays : List Overlay) (options : Options) :
    (∀ row ∈ (t.grid overlays options).rows, row.size = (t.grid overlays options).width) ∧
    (t.grid overlays options).height =
      ((t.layers overlays).flatMap fun o => o.reached options).foldl
        (fun rows p => max rows (p.row + 1)) t.declaredRows ∧
    (t.grid overlays options).width =
      ((t.layers overlays).flatMap fun o => o.reached options).foldl
        (fun cols p => max cols (p.col + 1)) t.declaredCols ∧
    (∀ o ∈ t.layers overlays, o.toList.Pairwise fun a b => compare a.1 b.1 = .lt) ∧
    (∀ p, (t.grid overlays options).contains p = true →
      ∃ cell, (t.grid overlays options).get? p = some cell ∧
        cell.CarriesLast (t.writesAt overlays options p)) ∧
    (t.restrict options).grid (overlays.map (·.restrict options)) options =
      t.grid overlays options := by
  refine ⟨(t.grid overlays options).rectangular, ?_, ?_, ?_, ?_, ?_⟩
  · rw [grid, Grid.height_resolve, height_merged_eq]
  · rw [grid, Grid.width_resolve, width_merged_eq]
  · exact fun o _ => Std.ExtTreeMap.ordered_keys_toList
  · intro p hin
    have hcarries := Cell.carriesLast_foldl_apply (t.writesAt overlays options p)
    rw [← cellAt_merged_eq] at hcarries
    exact ⟨_, Grid.get?_of_contains hin, hcarries.of_clearMarks (clearMarks_cellAt_grid ..)⟩
  · rw [grid, grid, merged_restrict]

end Table

end TableGrid
