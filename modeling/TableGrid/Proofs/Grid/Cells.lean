import TableGrid.Grid.Basic
import TableGrid.Proofs.List

/-!
# Cells of growing grids

`Grid.cellAt` gives the cell at a coordinate and an empty cell outside.  Growing a grid does not
change it, so a list of writes acts on it cell by cell, wherever the grid grew in between.

## Key results

- `ext_cellAt`: grids of one size with the same cells are equal
- `cellAt_place`: a patch changes one cell
- `cellAt_placeAll`: each cell takes up the patches written on it, in their order
- `height_placeAll_le_iff`, `width_placeAll_le_iff`: the size that a list of writes needs
- `setContent_setContent`, `setContent_self`: contents are overwritten and put back
- `setContent_comm`: contents of different cells are written in either order
-/

namespace TableGrid

namespace Grid

/-- The cell at a coordinate, an empty one outside. -/
def cellAt (g : Grid) (p : Coord) : Cell := (g.get? p).getD .blank

theorem contains_iff {g : Grid} {p : Coord} :
    g.contains p = true ↔ p.row < g.height ∧ p.col < g.width := by
  simp [contains]

theorem get?_of_contains {g : Grid} {p : Coord} (h : g.contains p = true) :
    g.get? p = some (g.cellAt p) := by
  rw [← get?_isSome_iff] at h
  obtain ⟨c, hc⟩ := Option.isSome_iff_exists.1 h
  rw [cellAt, hc]
  rfl

/-- Grids of one size with the same cells are equal. -/
theorem ext_cellAt {g h : Grid} (hh : g.height = h.height) (hw : g.width = h.width)
    (hc : ∀ p, g.contains p = true → g.cellAt p = h.cellAt p) : g = h := by
  apply ext_get? hh hw
  intro p
  have hcontains : h.contains p = g.contains p := by
    rw [contains, contains, hh, hw]
  by_cases hp : g.contains p = true
  · rw [get?_of_contains hp, get?_of_contains (hcontains ▸ hp), hc p hp]
  · rw [Bool.not_eq_true] at hp
    rw [get?_eq_none_iff.2 hp, get?_eq_none_iff.2 (hcontains ▸ hp)]

theorem cellAt_blank (m n : Nat) (p : Coord) : (blank m n).cellAt p = .blank := by
  rw [cellAt, get?_blank]
  split <;> rfl

/-- Growing keeps every cell. -/
theorem cellAt_grow (g : Grid) (m n : Nat) (p : Coord) : (g.grow m n).cellAt p = g.cellAt p := by
  rw [cellAt, get?_grow]
  split
  · rfl
  · rename_i hout
    have hnone : g.get? p = none := by
      rw [get?_eq_none_iff, Bool.eq_false_iff]
      intro hin
      rw [contains_iff] at hin
      exact hout (contains_iff.2 (by rw [height_grow, width_grow]; omega))
    rw [cellAt, hnone]

theorem cellAt_modify {g : Grid} {p : Coord} (h : g.contains p = true) (f : Cell → Cell)
    (q : Coord) : (g.modify p f).cellAt q = if p = q then f (g.cellAt q) else g.cellAt q := by
  rw [cellAt, get?_modify]
  split
  · rename_i heq
    subst heq
    rw [get?_of_contains h]
    rfl
  · rfl

@[simp] theorem contains_modify (g : Grid) (p : Coord) (f : Cell → Cell) (q : Coord) :
    (g.modify p f).contains q = g.contains q := by
  rw [contains, contains, height_modify, width_modify]

/-! ## Writing patches -/

/-- A patch changes one cell, and the grid reaches it. -/
theorem cellAt_place (g : Grid) (p : Coord) (patch : Patch) (q : Coord) :
    (g.place p patch).cellAt q = if p = q then (g.cellAt q).apply patch else g.cellAt q := by
  have hin : (g.grow (p.row + 1) (p.col + 1)).contains p = true := by
    rw [contains_iff, height_grow, width_grow]
    omega
  rw [place, cellAt_modify hin, cellAt_grow]

@[simp] theorem height_place (g : Grid) (p : Coord) (patch : Patch) :
    (g.place p patch).height = max g.height (p.row + 1) := by
  rw [place, height_modify, height_grow]

@[simp] theorem width_place (g : Grid) (p : Coord) (patch : Patch) :
    (g.place p patch).width = max g.width (p.col + 1) := by
  rw [place, width_modify, width_grow]

/-- Write a list of patches, each on its cell. -/
def placeAll (g : Grid) (writes : List (Coord × Patch)) : Grid :=
  writes.foldl (fun g write => g.place write.1 write.2) g

/-- Each cell takes up the patches written on it, in their order. -/
theorem cellAt_placeAll (g : Grid) (writes : List (Coord × Patch)) (p : Coord) :
    (g.placeAll writes).cellAt p =
      ((writes.filter fun write => write.1 = p).map (·.2)).foldl Cell.apply (g.cellAt p) := by
  unfold placeAll
  induction writes generalizing g with
  | nil => rfl
  | cons write writes ih =>
    obtain ⟨q, patch⟩ := write
    rw [List.foldl_cons, ih, cellAt_place, List.filter_cons]
    by_cases h : q = p <;> simp [h]

/-- The height after a list of writes is the least one that reaches all of them. -/
theorem height_placeAll_le_iff {g : Grid} {writes : List (Coord × Patch)} {n : Nat} :
    (g.placeAll writes).height ≤ n ↔ g.height ≤ n ∧ ∀ write ∈ writes, write.1.row < n := by
  have heq : (g.placeAll writes).height =
      writes.foldl (fun m write => max m (write.1.row + 1)) g.height := by
    unfold placeAll
    induction writes generalizing g with
    | nil => rfl
    | cons write writes ih => rw [List.foldl_cons, List.foldl_cons, ih, height_place]
  rw [heq, List.foldl_max_le_iff]
  rfl

/-- The width after a list of writes is the least one that reaches all of them. -/
theorem width_placeAll_le_iff {g : Grid} {writes : List (Coord × Patch)} {n : Nat} :
    (g.placeAll writes).width ≤ n ↔ g.width ≤ n ∧ ∀ write ∈ writes, write.1.col < n := by
  have heq : (g.placeAll writes).width =
      writes.foldl (fun m write => max m (write.1.col + 1)) g.width := by
    unfold placeAll
    induction writes generalizing g with
    | nil => rfl
    | cons write writes ih => rw [List.foldl_cons, List.foldl_cons, ih, width_place]
  rw [heq, List.foldl_max_le_iff]
  rfl

/-! ## Contents -/

@[simp] theorem height_setContent (g : Grid) (p : Coord) (c : Content) :
    (g.setContent p c).height = g.height := height_modify _ _ _

@[simp] theorem width_setContent (g : Grid) (p : Coord) (c : Content) :
    (g.setContent p c).width = g.width := rfl

@[simp] theorem contains_setContent (g : Grid) (p : Coord) (c : Content) (q : Coord) :
    (g.setContent p c).contains q = g.contains q := contains_modify _ _ _ _

theorem get?_setContent (g : Grid) (p : Coord) (c : Content) (q : Coord) :
    (g.setContent p c).get? q =
      if p = q then (g.get? q).map fun cell => { cell with content := c } else g.get? q :=
  get?_modify _ _ _ _

theorem cellAt_setContent {g : Grid} {p : Coord} (h : g.contains p = true) (c : Content)
    (q : Coord) : (g.setContent p c).cellAt q =
      if p = q then { g.cellAt q with content := c } else g.cellAt q :=
  cellAt_modify h _ _

/-- Contents of different cells may be written in either order. -/
theorem setContent_comm (g : Grid) {p q : Coord} (hne : p ≠ q) (c d : Content) :
    (g.setContent p c).setContent q d = (g.setContent q d).setContent p c := by
  apply ext_get? (by simp) (by simp)
  intro r
  simp only [get?_setContent]
  by_cases hq : q = r
  · have hp : p ≠ r := fun hp => hne (hp.trans hq.symm)
    simp [hp, hq]
  · simp [hq]

/-- Only the last content counts. -/
theorem setContent_setContent (g : Grid) (p : Coord) (c c' : Content) :
    (g.setContent p c).setContent p c' = g.setContent p c' := by
  apply ext_get? (by simp) (by simp)
  intro q
  simp only [get?_setContent]
  split
  · cases g.get? q <;> rfl
  · rfl

/-- Putting back the content of a cell changes nothing. -/
theorem setContent_self {g : Grid} {p : Coord} {cell : Cell} (h : g.get? p = some cell) :
    g.setContent p cell.content = g := by
  apply ext_get? (by simp) (by simp)
  intro q
  rw [get?_setContent]
  split
  · rename_i heq
    rw [← heq, h]
    rfl
  · rfl

end Grid

end TableGrid
