import TableGrid.Proofs.Grid.Content
import TableGrid.Proofs.Grid.Edit
import TableGrid.Proofs.Style.Cascade

/-!
# Attributes of cells in the grid

Setting or clearing attributes changes the entry under the address of a cell.  The content that an
overlay writes on a cell stays whatever happens to its attributes, even where the entry goes with
them.  A property that is set on cells inside the grid is set there when the grid is built again,
and lies on top of all else in the style of these cells.

## Key results

- `writtenContent?_congr`: entries with the same contents write the same contents
- `content_grid_congr`: overlays that write the same contents show the same ones
- `grid_foldl_setAttribute`: a property set on cells of the grid
- `cellStyle_restyle`: what this does to the styles of cells
-/

namespace TableGrid

/-! ## Contents that are written -/

namespace Overlay

variable {o o' : Overlay} {p : Coord}

/-- The content that an overlay writes on a cell, under whatever key. -/
def writtenContent? (o : Overlay) (p : Coord) : Option Content :=
  Patch.last? (o.patchesAt p) Patch.content

/-- The entry under the address comes before the aliases. -/
theorem writtenContent?_eq (o : Overlay) (hfits : p.Fits) :
    o.writtenContent? p = (o.contentAt? p).or (o.aliasContent? p) := by
  rw [writtenContent?, aliasContent?, patchesAt_eq o hfits, contentAt?, Patch.last?, Patch.last?,
    List.filterMap_append, List.getLast?_append]
  congr 1
  cases o.getAt? p with
  | none => rfl
  | some entry =>
    have hcontent : entry.toPatch.content = entry.content? := by
      cases entry <;> rfl
    simp only [Option.toList_some, List.map_cons, List.map_nil, Option.bind_some,
      List.filterMap_cons, hcontent]
    cases entry.content? <;> rfl

/-- An overlay writes the same contents as long as its contents stay and no entry changes but the
    one of a single cell. -/
theorem writtenContent?_congr (herase : o'.erase p.address = o.erase p.address)
    (hcontent : o'.contentAt? p = o.contentAt? p) (q : Coord) :
    o'.writtenContent? q = o.writtenContent? q := by
  by_cases heq : p = q
  · subst heq
    by_cases hfits : p.Fits
    · rw [writtenContent?_eq o' hfits, writtenContent?_eq o hfits, hcontent, aliasContent?,
        aliasContent?, herase]
    · rw [writtenContent?, writtenContent?, patchesAt_of_not_fits _ hfits,
        patchesAt_of_not_fits _ hfits]
  · have hname := names_address_of_ne heq
    rw [writtenContent?, writtenContent?, ← patchesAt_erase o' hname, herase,
      patchesAt_erase o hname]

end Overlay

/-- Overlays that write the same contents show the same ones. -/
theorem Table.content_grid_congr {o o' : Overlay}
    (h : ∀ p, o'.writtenContent? p = o.writtenContent? p) (t : Table) (options : Options)
    (p : Coord) :
    ((t.grid [o'] options).cellAt p).content = ((t.grid [o] options).cellAt p).content := by
  rw [content_cellAt_grid, content_cellAt_grid, cellAt_merged, cellAt_merged]
  split
  · rw [Cell.content_foldl_apply, Cell.content_foldl_apply]
    exact congrArg (Option.getD · _) (h p)
  · rfl

/-! ## Properties set on cells -/

namespace Grid

/-- Set a property on cells. -/
def restyle (g : Grid) (cells : List Coord) (key : Property) (text : String) : Grid :=
  cells.foldl (fun g p => g.modify p (·.setProperty key text)) g

/-- Setting a property keeps spans and marks. -/
theorem map_shape_restyle (g : Grid) (cells : List Coord) (key : Property) (text : String) :
    (g.restyle cells key text).map Cell.shape = g.map Cell.shape := by
  induction cells generalizing g with
  | nil => rfl
  | cons p cells ih => exact (ih _).trans (map_shape_modify (fun _ => by rfl) g p)

theorem height_restyle (g : Grid) (cells : List Coord) (key : Property) (text : String) :
    (g.restyle cells key text).height = g.height :=
  height_congr (map_shape_restyle g cells key text)

theorem width_restyle (g : Grid) (cells : List Coord) (key : Property) (text : String) :
    (g.restyle cells key text).width = g.width :=
  width_congr (map_shape_restyle g cells key text)

theorem get?_restyle (g : Grid) (cells : List Coord) (key : Property) (text : String)
    (q : Coord) :
    (g.restyle cells key text).get? q =
      (g.get? q).map fun cell => if q ∈ cells then cell.setProperty key text else cell := by
  induction cells generalizing g with
  | nil => simp [restyle]
  | cons p cells ih =>
    rw [restyle, List.foldl_cons, ← restyle, ih, get?_modify]
    by_cases hp : p = q
    · subst hp
      cases g.get? p with
      | none => simp
      | some cell => by_cases hmem : p ∈ cells <;> simp [hmem, Cell.setProperty_setProperty]
    · simp [hp, Ne.symm hp]

/-- Setting a property keeps contents. -/
theorem content_cellAt_restyle (g : Grid) (cells : List Coord) (key : Property) (text : String)
    (q : Coord) :
    ((g.restyle cells key text).cellAt q).content = (g.cellAt q).content := by
  rw [cellAt, cellAt, get?_restyle]
  cases g.get? q with
  | none => rfl
  | some cell =>
    rw [Option.map_some]
    split <;> rfl

end Grid

namespace Table

variable {t : Table} {o : Overlay} {options : Options} {p : Coord} {name : String} {key : Property}

theorem merged_setAttribute (hname : Property.ofName? name = some key) (text : String)
    (hadm : options.admits p = true) (hfits : p.Fits)
    (hin : (t.merged [o] options).contains p = true) :
    t.merged [o.setAttribute p name text] options =
      (t.merged [o] options).modify p (·.setProperty key (Overlay.reduceHash text)) := by
  rw [Overlay.setAttribute_eq]
  exact merged_insert hadm hfits
    (fun below => Cell.apply_attributed below hname _ (o.getAt? p)) hin

/-- A property that is set on a cell inside is set there when the grid is built again. -/
theorem grid_setAttribute (hname : Property.ofName? name = some key) (text : String)
    (hadm : options.admits p = true) (hfits : p.Fits)
    (hin : (t.grid [o] options).contains p = true) :
    t.grid [o.setAttribute p name text] options =
      (t.grid [o] options).modify p (·.setProperty key (Overlay.reduceHash text)) := by
  rw [contains_grid] at hin
  rw [grid, grid, merged_setAttribute hname text hadm hfits hin]
  exact Grid.resolve_modify (fun _ => by rfl) (fun _ => by rfl) _ p

/-- The same for one cell after the other. -/
theorem grid_foldl_setAttribute (hname : Property.ofName? name = some key) (text : String)
    (hfits : options.Fits) (hwithin : t.Within options) {cells : List Coord}
    (hin : ∀ p ∈ cells, (t.grid [o] options).contains p = true) :
    t.grid [cells.foldl (fun o p => o.setAttribute p name text) o] options =
      (t.grid [o] options).restyle cells key (Overlay.reduceHash text) := by
  induction cells generalizing o with
  | nil => rfl
  | cons p cells ih =>
    -- A cell of the grid lies within the limits, so its entry is not skipped by a rebuild.
    have hp := hin p List.mem_cons_self
    have hadm := admits_of_contains hwithin.1 hwithin.2 hp
    have hset := grid_setAttribute hname text hadm (Options.fits_of_admits hfits hadm) hp
    have hrest : ∀ q ∈ cells, (t.grid [o.setAttribute p name text] options).contains q = true := by
      intro q hq
      rw [hset, Grid.contains_modify]
      exact hin q (List.mem_cons_of_mem p hq)
    rw [List.foldl_cons, ih hrest, hset]
    rfl

/-! ## Styles -/

theorem showsNothing_eq (g : Grid) (p : Coord) :
    showsNothing g p = (g.cellAt p).content.isEmpty := by
  rw [showsNothing, Grid.cellAt]
  cases g.get? p <;> rfl

/-- A property that cells may have and that is set on a cell itself lies on top of all else. -/
theorem cellStyle_restyle (t : Table) {g : Grid} (options : Options) {cells : List Coord}
    (hin : ∀ p ∈ cells, g.contains p = true) (hkey : Level.cell.allows key = true) (text : String)
    (p : Coord) :
    t.cellStyle (g.restyle cells key text) options p =
      if p ∈ cells then (t.cellStyle g options p).insert key text
      else t.cellStyle g options p := by
  have hshows : showsNothing (g.restyle cells key text) p = showsNothing g p := by
    rw [showsNothing_eq, showsNothing_eq, Grid.content_cellAt_restyle]
  refine Style.ext_get? fun key' => ?_
  rw [get?_cellStyle, Grid.get?_restyle, Grid.height_restyle, Grid.width_restyle, hshows]
  split
  · rename_i hmem
    rw [Style.get?_insert, get?_cellStyle, Grid.get?_of_contains (hin p hmem), Option.map_some,
      Option.bind_some, Option.bind_some, Cell.setProperty, Attributes.textAt?, Attributes.get?_set]
    by_cases heq : key = key'
    · subst heq
      simp [hkey]
    · simp [heq, Attributes.textAt?]
  · rw [get?_cellStyle, Option.map_id']

/-- Styles of rows and columns depend on the size of the grid only. -/
theorem rowStyle_congr (t : Table) {g g' : Grid} (h : g'.height = g.height) (row : Nat) :
    t.rowStyle g' row = t.rowStyle g row := by
  rw [rowStyle, rowStyle, rowStages, rowStages, h]

theorem colStyle_congr (t : Table) {g g' : Grid} (h : g'.width = g.width) (col : Nat) :
    t.colStyle g' col = t.colStyle g col := by
  rw [colStyle, colStyle, colStages, colStages, h]

end Table

end TableGrid
