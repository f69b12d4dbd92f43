import TableGrid.Grid.Span
import TableGrid.Proofs.List

/-!
# What one owner covers

`Grid.coverRegion` marks the cells of an owner's region.  In each row it covers the cells from the
column of the owner on, up to the first one that is covered already; `Grid.FreeRun` says that
there is none up to a given column.

## Key results

- `get?_coverRun`: which cells of a row are covered
- `get?_coverRegion`: which cells of a region are covered
-/

namespace TableGrid

namespace Grid

/-- Mark a cell as covered. -/
def cover (owner : Coord) (cell : Cell) : Cell := { cell with subsumedBy := some owner }

/-- Whether all cells of a row from one column to another exist and are not covered. -/
def FreeRun (g : Grid) (row first last : Nat) : Prop :=
  ∀ col, first ≤ col → col ≤ last → ∃ cell, g.get? ⟨row, col⟩ = some cell ∧ cell.subsumedBy = none

/-- Whether a coordinate lies in a region of the given size whose first cell is `owner`. -/
def InRegion (owner : Coord) (height width : Nat) (p : Coord) : Prop :=
  (owner.row ≤ p.row ∧ p.row < owner.row + height) ∧
    owner.col ≤ p.col ∧ p.col < owner.col + width

theorem freeRun_congr {g h : Grid} {row first last : Nat}
    (heq : ∀ col, first ≤ col → col ≤ last → h.get? ⟨row, col⟩ = g.get? ⟨row, col⟩) :
    h.FreeRun row first last ↔ g.FreeRun row first last := by
  constructor
  · intro hfree col hf hl
    rw [← heq col hf hl]
    exact hfree col hf hl
  · intro hfree col hf hl
    rw [heq col hf hl]
    exact hfree col hf hl

/-- A free run goes on from its first cell. -/
theorem freeRun_iff {g : Grid} {row first last : Nat} (h : first ≤ last) :
    g.FreeRun row first last ↔
      (∃ cell, g.get? ⟨row, first⟩ = some cell ∧ cell.subsumedBy = none) ∧
        g.FreeRun row (first + 1) last := by
  constructor
  · intro hfree
    exact ⟨hfree first (Nat.le_refl _) h, fun col hf hl => hfree col (by omega) hl⟩
  · rintro ⟨hfirst, hrest⟩ col hf hl
    by_cases heq : col = first
    · subst heq
      exact hfirst
    · exact hrest col (by omega) hl

/-! ## Sizes -/

@[simp] theorem height_coverRun (owner : Coord) (count : Nat) (p : Coord) (g : Grid) :
    (coverRun owner count p g).height = g.height := by
  induction count generalizing p g with
  | zero => rfl
  | succ count ih =>
    rw [coverRun]
    split
    · rfl
    · split
      · rfl
      · rw [ih, height_modify]

@[simp] theorem width_coverRun (owner : Coord) (count : Nat) (p : Coord) (g : Grid) :
    (coverRun owner count p g).width = g.width := by
  induction count generalizing p g with
  | zero => rfl
  | succ count ih =>
    rw [coverRun]
    split
    · rfl
    · split
      · rfl
      · rw [ih, width_modify]

@[simp] theorem height_coverRow (owner : Coord) (width : Nat) (g : Grid) (i : Nat) :
    (coverRow owner width g i).height = g.height := by
  rw [coverRow]
  split <;> rw [height_coverRun]

@[simp] theorem width_coverRow (owner : Coord) (width : Nat) (g : Grid) (i : Nat) :
    (coverRow owner width g i).width = g.width := by
  rw [coverRow]
  split <;> rw [width_coverRun]

@[simp] theorem height_coverRegion (owner : Coord) (height width : Nat) (g : Grid) :
    (coverRegion owner height width g).height = g.height := by
  rw [coverRegion]
  refine List.foldl_range_induction (fun _ (h : Grid) => h.height = g.height) _ rfl ?_
  intro i h _ heq
  rw [height_coverRow, heq]

@[simp] theorem width_coverRegion (owner : Coord) (height width : Nat) (g : Grid) :
    (coverRegion owner height width g).width = g.width := by
  rw [coverRegion]
  refine List.foldl_range_induction (fun _ (h : Grid) => h.width = g.width) _ rfl ?_
  intro i h _ heq
  rw [width_coverRow, heq]

/-! ## Cells -/

open scoped Classical in
/-- A run covers the cells from its first one on, up to the first that is covered already. -/
theorem get?_coverRun (owner : Coord) (count : Nat) (p : Coord) (g : Grid) (q : Coord) :
    (coverRun owner count p g).get? q =
      if q.row = p.row ∧ p.col ≤ q.col ∧ q.col < p.col + count ∧ g.FreeRun p.row p.col q.col then
        (g.get? q).map (cover owner)
      else g.get? q := by
  induction count generalizing p g with
  | zero =>
    rw [coverRun, if_neg]
    omega
  | succ count ih =>
    rw [coverRun]
    split
    -- The run has reached the end of the row.
    · rename_i hnone
      rw [if_neg]
      rintro ⟨-, hle, -, hfree⟩
      obtain ⟨cell, hcell, -⟩ := hfree p.col (Nat.le_refl _) hle
      rw [show (⟨p.row, p.col⟩ : Coord) = p from rfl, hnone] at hcell
      cases hcell
    · rename_i cell hcell
      split
      -- The run has met a cell that is covered already.
      · rename_i hcovered
        rw [if_neg]
        rintro ⟨-, hle, -, hfree⟩
        obtain ⟨cell', hcell', hnone⟩ := hfree p.col (Nat.le_refl _) hle
        rw [show (⟨p.row, p.col⟩ : Coord) = p from rfl, hcell] at hcell'
        rw [Option.some.inj hcell', hnone] at hcovered
        cases hcovered
      · rename_i hnone
        have hfirst : ∃ cell, g.get? ⟨p.row, p.col⟩ = some cell ∧ cell.subsumedBy = none :=
          ⟨cell, hcell, by simpa using hnone⟩
        -- Covering the first cell does not matter for the rest of the run.
        have hrest : ∀ last, (g.modify p (cover owner)).FreeRun p.row (p.col + 1) last ↔
            g.FreeRun p.row (p.col + 1) last := by
          intro last
          apply freeRun_congr
          intro col hf _
          rw [get?_modify, if_neg]
          intro heq
          have hcol := congrArg Coord.col heq
          simp only at hcol
          omega
        show (coverRun owner count ⟨p.row, p.col + 1⟩ (g.modify p (cover owner))).get? q = _
        rw [ih, get?_modify]
        -- The first cell is covered now; all others are left to the rest of the run.
        by_cases heq : p = q
        · subst heq
          have hout : ¬p.col + 1 ≤ p.col := by omega
          rw [if_neg (fun h => hout h.2.1), if_pos rfl, if_pos]
          refine ⟨rfl, Nat.le_refl _, by omega, ?_⟩
          intro col hf hl
          obtain rfl : col = p.col := by omega
          exact hfirst
        · rw [if_neg heq]
          have hcol : q.row = p.row → p.col ≤ q.col → p.col + 1 ≤ q.col := by
            intro hrow hle
            have : p.col ≠ q.col := fun h => heq (by cases p; cases q; simp_all)
            omega
          congr 1
          rw [eq_iff_iff]
          constructor
          · rintro ⟨hrow, hle, hlt, hfree⟩
            simp only at hrow hle hlt
            exact ⟨hrow, by omega, by omega,
              (freeRun_iff (by omega)).2 ⟨hfirst, (hrest _).1 hfree⟩⟩
          · rintro ⟨hrow, hle, hlt, hfree⟩
            exact ⟨hrow, hcol hrow hle, by simp only; omega,
              (hrest _).2 ((freeRun_iff hle).1 hfree).2⟩

open scoped Classical in
/-- Row number `i` of an owner's region is covered from the column of the owner on. -/
theorem get?_coverRow {owner : Coord} {width i : Nat} {g : Grid} (hw : 0 < width)
    (howner : ∃ cell, g.get? owner = some cell ∧ cell.subsumedBy = none) (q : Coord) :
    (coverRow owner width g i).get? q =
      if q.row = owner.row + i ∧ owner.col ≤ q.col ∧ q.col < owner.col + width ∧ q ≠ owner ∧
          g.FreeRun q.row owner.col q.col then
        (g.get? q).map (cover owner)
      else g.get? q := by
  rw [coverRow]
  split
  -- In its own row an owner covers from the next cell on, and it is free itself.
  · rename_i hi
    subst hi
    rw [get?_coverRun]
    congr 1
    rw [eq_iff_iff]
    constructor
    · rintro ⟨hrow, hle, hlt, hfree⟩
      simp only at hrow hle hlt hfree
      refine ⟨hrow, by omega, by omega, ?_, ?_⟩
      · rintro rfl
        omega
      · rw [hrow]
        exact (freeRun_iff (by omega)).2 ⟨howner, hfree⟩
    · rintro ⟨hrow, hle, hlt, hne, hfree⟩
      have : owner.col ≠ q.col := fun h => hne (by cases owner; cases q; simp_all)
      rw [hrow] at hfree
      exact ⟨hrow, by simp only; omega, by simp only; omega, ((freeRun_iff hle).1 hfree).2⟩
  -- In the rows below it covers from its own column on.
  · rename_i hi
    rw [get?_coverRun]
    congr 1
    rw [eq_iff_iff]
    constructor
    · rintro ⟨hrow, hle, hlt, hfree⟩
      simp only at hrow hle hlt hfree
      refine ⟨hrow, hle, hlt, ?_, hrow ▸ hfree⟩
      rintro rfl
      omega
    · rintro ⟨hrow, hle, hlt, -, hfree⟩
      exact ⟨hrow, hle, hlt, hrow ▸ hfree⟩

open scoped Classical in
/-- Which cells an owner covers: those of its region that a free run joins to its column. -/
theorem get?_coverRegion {owner : Coord} {height width : Nat} {g : Grid} (hw : 0 < width)
    (howner : ∃ cell, g.get? owner = some cell ∧ cell.subsumedBy = none) (q : Coord) :
    (coverRegion owner height width g).get? q =
      if InRegion owner height width q ∧ q ≠ owner ∧ g.FreeRun q.row owner.col q.col then
        (g.get? q).map (cover owner)
      else g.get? q := by
  -- After `i` rows the cells of these rows are covered and all others are as before.
  have hrows : ∀ q, (coverRegion owner height width g).get? q =
      if q.row < owner.row + min height (g.height - owner.row) ∧ owner.row ≤ q.row ∧
          owner.col ≤ q.col ∧ q.col < owner.col + width ∧ q ≠ owner ∧
          g.FreeRun q.row owner.col q.col then
        (g.get? q).map (cover owner)
      else g.get? q := by
    rw [coverRegion]
    refine List.foldl_range_induction (fun i (h : Grid) => ∀ q, h.get? q =
      if q.row < owner.row + i ∧ owner.row ≤ q.row ∧ owner.col ≤ q.col ∧
          q.col < owner.col + width ∧ q ≠ owner ∧ g.FreeRun q.row owner.col q.col then
        (g.get? q).map (cover owner)
      else g.get? q) _ ?_ ?_
    · intro q
      rw [if_neg]
      omega
    · intro i h _ hinv q
      have howner' : ∃ cell, h.get? owner = some cell ∧ cell.subsumedBy = none := by
        rw [hinv, if_neg (by simp)]
        exact howner
      -- The rows covered so far do not touch the free runs of this one.
      have hfree : q.row = owner.row + i →
          (h.FreeRun q.row owner.col q.col ↔ g.FreeRun q.row owner.col q.col) := by
        intro hrow
        apply freeRun_congr
        intro col _ _
        rw [hinv, if_neg]
        simp only
        omega
      rw [get?_coverRow hw howner' q, hinv q]
      by_cases hrow : q.row = owner.row + i
      · rw [if_neg (show ¬(q.row < owner.row + i ∧ _) from by omega)]
        congr 1
        rw [eq_iff_iff, hfree hrow]
        constructor
        · rintro ⟨-, hle, hlt, hne, hrun⟩
          exact ⟨by omega, by omega, hle, hlt, hne, hrun⟩
        · rintro ⟨-, -, hle, hlt, hne, hrun⟩
          exact ⟨hrow, hle, hlt, hne, hrun⟩
      · rw [if_neg (show ¬(q.row = owner.row + i ∧ _) from fun h => hrow h.1)]
        congr 1
        rw [eq_iff_iff]
        constructor
        · rintro ⟨hlt, hrest⟩
          exact ⟨by omega, hrest⟩
        · rintro ⟨hlt, hrest⟩
          exact ⟨by omega, hrest⟩
  rw [hrows]
  congr 1
  rw [eq_iff_iff]
  constructor
  · rintro ⟨hlt, hge, hle, hcol, hne, hrun⟩
    exact ⟨⟨⟨hge, by omega⟩, hle, hcol⟩, hne, hrun⟩
  · rintro ⟨⟨⟨hge, hlt⟩, hle, hcol⟩, hne, hrun⟩
    -- A free run stays inside the grid.
    obtain ⟨cell, hcell, -⟩ := hrun q.col hle (Nat.le_refl _)
    have hin := get?_isSome_iff.1 (Option.isSome_iff_exists.2 ⟨cell, hcell⟩)
    simp only [contains, Bool.and_eq_true, decide_eq_true_eq] at hin
    exact ⟨by omega, hge, hle, hcol, hne, hrun⟩

end Grid

end TableGrid
