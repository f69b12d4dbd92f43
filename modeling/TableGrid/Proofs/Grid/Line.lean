import TableGrid.Cursor.Direction
import TableGrid.Proofs.Cursor.Runs
import TableGrid.Proofs.Grid.Owners

/-!
# Owners along a line

A line of a grid is a column, along which vertical moves go, or a row.  Where no spans intersect,
every owner has all the cells of its region, so the owners of the cells of a line stand in runs.

## Key results

- `tiled_resolve`: in a resolved grid, cells belong to the owner whose region they are in
- `Tiled.inRuns_lineCells`: the owners of the cells of a line stand in runs
-/

namespace TableGrid

namespace Axis

/-- The index that moves along an axis change. -/
def along : Axis → Coord → Nat
  | vertical, p => p.row
  | horizontal, p => p.col

/-- The index that moves along an axis keep. -/
def across : Axis → Coord → Nat
  | vertical, p => p.col
  | horizontal, p => p.row

/-- The cell of a line at an index. -/
def coord (axis : Axis) (line i : Nat) : Coord :=
  match axis with
  | vertical => ⟨i, line⟩
  | horizontal => ⟨line, i⟩

variable {axis : Axis} {line i : Nat} {p : Coord}

@[simp] theorem across_coord : axis.across (axis.coord line i) = line := by cases axis <;> rfl

@[simp] theorem coord_across_along (axis : Axis) (p : Coord) :
    axis.coord (axis.across p) (axis.along p) = p := by
  cases axis <;> rfl

end Axis

/-- How many cells of a line a cell covers. -/
def Cell.extent (c : Cell) : Axis → Nat
  | .vertical => c.height
  | .horizontal => c.width

theorem Cell.height_pos (c : Cell) : 0 < c.height := by
  unfold height
  split <;> omega

theorem Cell.width_pos (c : Cell) : 0 < c.width := by
  unfold width
  split <;> omega

namespace Grid

variable {g : Grid} {p owner : Coord} {axis : Axis} {line i : Nat}

/-- The number of cells of a line. -/
def length (g : Grid) : Axis → Nat
  | .vertical => g.height
  | .horizontal => g.width

/-- The number of lines. -/
def breadth (g : Grid) : Axis → Nat
  | .vertical => g.width
  | .horizontal => g.height

theorem contains_coord_iff :
    g.contains (axis.coord line i) = true ↔ i < g.length axis ∧ line < g.breadth axis := by
  rw [contains_iff]
  cases axis
  · rfl
  · exact And.comm

/-! ## Grids without intersecting spans -/

/-- Whether a coordinate is in the region of an uncovered cell. -/
def Spans (g : Grid) (owner p : Coord) : Prop :=
  ∃ cell, g.get? owner = some cell ∧ cell.subsumedBy = none ∧
    InRegion owner cell.height cell.width p

/-- Whether no spans intersect: every owner has all the cells of its region. -/
def SpansApart (g : Grid) : Prop :=
  ∀ owner p, g.Spans owner p → g.contains p = true → g.owner? p = some owner

instance (owner p : Coord) (height width : Nat) : Decidable (InRegion owner height width p) :=
  inferInstanceAs (Decidable (_ ∧ _))

theorem spansApart_iff :
    g.SpansApart ↔ ∀ owner ∈ g.owners, ∀ p ∈ g.coords,
      InRegion owner (g.cellAt owner).height (g.cellAt owner).width p →
        g.owner? p = some owner := by
  constructor
  · intro h owner howner p hp hregion
    obtain ⟨cell, hcell, hfree⟩ := mem_owners.1 howner
    rw [cellAt, hcell] at hregion
    exact h owner p ⟨cell, hcell, hfree, hregion⟩ (mem_coords.1 hp)
  · rintro h owner p ⟨cell, hcell, hfree, hregion⟩ hin
    refine h owner (mem_owners.2 ⟨cell, hcell, hfree⟩) p (mem_coords.2 hin) ?_
    rw [cellAt, hcell]
    exact hregion

instance (g : Grid) : Decidable g.SpansApart := decidable_of_iff _ spansApart_iff.symm

/-- Whether every cell belongs to the one owner whose region it is in. -/
def Tiled (g : Grid) : Prop :=
  ∀ owner p, g.owner? p = some owner ↔ g.contains p = true ∧ g.Spans owner p

/-- An owner is in its own region. -/
theorem spans_self (h : owner ∈ g.owners) : g.Spans owner owner := by
  obtain ⟨cell, hcell, hfree⟩ := mem_owners.1 h
  refine ⟨cell, hcell, hfree, ⟨Nat.le_refl _, ?_⟩, Nat.le_refl _, ?_⟩
  · exact Nat.lt_add_of_pos_right cell.height_pos
  · exact Nat.lt_add_of_pos_right cell.width_pos

/-- In a resolved grid, the cells of an owner are in its region. -/
theorem spans_of_owner? (howner : g.resolve.owner? p = some owner) : g.resolve.Spans owner p := by
  rcases owner_or_covers howner with ⟨rfl, hmem⟩ | ⟨-, hspans⟩
  · exact spans_self hmem
  · exact hspans

/-- In a resolved grid, cells belong to the owner whose region they are in. -/
theorem tiled_resolve (h : g.resolve.SpansApart) : g.resolve.Tiled := by
  intro owner p
  constructor
  · exact fun howner => ⟨contains_of_owner? howner, spans_of_owner? howner⟩
  · exact fun ⟨hin, hspans⟩ => h owner p hspans hin

theorem Spans.contains (h : g.Spans owner p) : g.contains owner = true := by
  obtain ⟨cell, hcell, -⟩ := h
  exact get?_isSome_iff.1 (by rw [hcell]; rfl)

/-- A region is the part of a line that the owner covers, on the lines that it is on. -/
theorem spans_coord_iff :
    g.Spans owner (axis.coord line i) ↔
      g.Spans owner (axis.coord line (axis.along owner)) ∧ axis.along owner ≤ i ∧
        i < axis.along owner + (g.cellAt owner).extent axis := by
  have hcellAt : ∀ cell, g.get? owner = some cell → g.cellAt owner = cell := by
    intro cell hcell
    rw [cellAt, hcell, Option.getD_some]
  cases axis with
  | vertical =>
    constructor
    · rintro ⟨cell, hcell, hfree, hrow, hcol⟩
      have hpos := cell.height_pos
      refine ⟨⟨cell, hcell, hfree, ⟨Nat.le_refl _, ?_⟩, hcol⟩, hrow.1, ?_⟩
      · show owner.row < owner.row + cell.height
        omega
      · rw [hcellAt cell hcell]
        exact hrow.2
    · rintro ⟨⟨cell, hcell, hfree, -, hcol⟩, hrow⟩
      rw [hcellAt cell hcell] at hrow
      exact ⟨cell, hcell, hfree, hrow, hcol⟩
  | horizontal =>
    constructor
    · rintro ⟨cell, hcell, hfree, hrow, hcol⟩
      have hpos := cell.width_pos
      refine ⟨⟨cell, hcell, hfree, hrow, Nat.le_refl _, ?_⟩, hcol.1, ?_⟩
      · show owner.col < owner.col + cell.width
        omega
      · rw [hcellAt cell hcell]
        exact hcol.2
    · rintro ⟨⟨cell, hcell, hfree, hrow, -⟩, hcol⟩
      rw [hcellAt cell hcell] at hcol
      exact ⟨cell, hcell, hfree, hrow, hcol⟩

/-- An owner belongs to itself. -/
theorem Tiled.owner?_self (h : g.Tiled) (howner : g.owner? p = some owner) :
    g.owner? owner = some owner := by
  obtain ⟨-, cell, hcell, hfree, -⟩ := (h owner p).1 howner
  exact owner?_of_mem_owners (mem_owners.2 ⟨cell, hcell, hfree⟩)

/-- The owner of a cell of a line has the cell of that line next to where it starts. -/
theorem Tiled.owner?_coord (h : g.Tiled) (howner : g.owner? (axis.coord line i) = some owner) :
    g.owner? (axis.coord line (axis.along owner)) = some owner := by
  obtain ⟨hin, hspans⟩ := (h owner _).1 howner
  obtain ⟨hstart, -, -⟩ := spans_coord_iff.1 hspans
  refine (h owner _).2 ⟨?_, hstart⟩
  have hcontains := hspans.contains
  rw [← Axis.coord_across_along axis owner, contains_coord_iff] at hcontains
  rw [contains_coord_iff] at hin ⊢
  exact ⟨hcontains.1, hin.2⟩

/-! ## Lines -/

/-- The owners of the cells of a line, one for each cell. -/
def lineCells (g : Grid) (axis : Axis) (line : Nat) : List Coord :=
  (List.range (g.length axis)).filterMap fun i => g.owner? (axis.coord line i)

/-- The distinct owners of the cells of a line, in order. -/
def lineOwners (g : Grid) (axis : Axis) (line : Nat) : List Coord :=
  (g.lineCells axis line).eraseDups

theorem map_some_lineCells (hline : line < g.breadth axis) :
    (g.lineCells axis line).map some =
      (List.range (g.length axis)).map fun i => g.owner? (axis.coord line i) := by
  rw [lineCells, List.map_filterMap_some_eq_filter_map_isSome, List.filter_eq_self]
  intro owner howner
  obtain ⟨i, hi, rfl⟩ := List.mem_map.1 howner
  rw [owner?, if_pos (contains_coord_iff.2 ⟨List.mem_range.1 hi, hline⟩)]
  rfl

theorem length_lineCells (hline : line < g.breadth axis) :
    (g.lineCells axis line).length = g.length axis := by
  simpa using congrArg List.length (map_some_lineCells hline)

theorem getElem?_lineCells (hline : line < g.breadth axis) (i : Nat) :
    (g.lineCells axis line)[i]? = g.owner? (axis.coord line i) := by
  by_cases hi : i < g.length axis
  · have hget := congrArg (·[i]?) (map_some_lineCells hline)
    simp only [List.getElem?_map, List.getElem?_range hi, Option.map_some] at hget
    obtain ⟨owner, howner, heq⟩ := Option.map_eq_some_iff.1 hget
    rw [howner, heq]
  · have hout : ¬g.contains (axis.coord line i) = true := by
      rw [contains_coord_iff]
      exact fun h => hi h.1
    rw [owner?, if_neg hout, List.getElem?_eq_none (by rw [length_lineCells hline]; omega)]

theorem Tiled.inRuns_lineCells (h : g.Tiled) (hline : line < g.breadth axis) :
    (g.lineCells axis line).InRuns axis.along
      (fun owner => axis.along owner + (g.cellAt owner).extent axis) := by
  intro owner hmem i
  obtain ⟨j, hj⟩ := List.mem_iff_getElem?.1 hmem
  rw [getElem?_lineCells hline] at hj ⊢
  obtain ⟨-, hspans⟩ := (h owner _).1 hj
  obtain ⟨hstart, -⟩ := spans_coord_iff.1 hspans
  rw [h owner, length_lineCells hline, contains_coord_iff, spans_coord_iff]
  simp only [hline, and_true, hstart, true_and]

end Grid

end TableGrid
