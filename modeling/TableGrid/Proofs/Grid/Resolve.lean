import Mathlib.Data.List.Basic
import TableGrid.Proofs.Grid.Cover
import TableGrid.Proofs.Grid.Cells

/-!
# Owners and covered cells

`Grid.resolve` visits the cells row by row.  `Grid.Scanned` says what the grid looks like while
the cells before a coordinate have been visited: each of them is rendered or covered, the others
are not rendered yet, and marks point back to cells that stay owners.  An owner covers cells
behind it only, so a visit leaves the cells in front of it alone.

## Key results

- `Scanned.own`, `Scanned.skip`: visits preserve the invariant
- `resolve_induction`: what visits preserve holds at the end of the grid
- `scanned_resolve`: the invariant at the end of the grid
- `resolve_marks`: every cell is rendered in its place or covered by an owner before it
-/

namespace TableGrid

namespace Coord

/-- Whether a coordinate comes before another one, row by row. -/
def Before (p q : Coord) : Prop := p.row < q.row ∨ p.row = q.row ∧ p.col < q.col

theorem before_next_iff {p : Coord} {row col : Nat} :
    p.Before ⟨row, col + 1⟩ ↔ p.Before ⟨row, col⟩ ∨ p = ⟨row, col⟩ := by
  obtain ⟨r, c⟩ := p
  simp only [Before, Coord.mk.injEq]
  omega

end Coord

namespace Grid

/-! ## The invariant of the scan -/

/-- The places given to the first `count` cells of a row. -/
def places (g : Grid) (row count : Nat) : List RenderPlace :=
  (List.range count).filterMap fun col => (g.get? ⟨row, col⟩).bind (·.render)

/-- The first `count` places of a row. -/
def firstPlaces (row count : Nat) : List RenderPlace := (List.range count).map fun x => ⟨x, row⟩

/-- Whether a coordinate holds an uncovered cell whose region reaches a later coordinate. -/
def Covers (g : Grid) (owner p : Coord) : Prop :=
  owner.Before p ∧ ∃ cell, g.get? owner = some cell ∧ cell.subsumedBy = none ∧
    InRegion owner cell.height cell.width p

/-- What the grid looks like when the cells of `g₀` before `next` have been visited and `x` of
    them are owners in the row of `next`. -/
structure Scanned (g₀ : Grid) (next : Coord) (x : Nat) (g : Grid) : Prop where
  same : g.map Cell.clearMarks = g₀.map Cell.clearMarks
  visited : ∀ p cell, g.get? p = some cell → p.Before next →
    (cell.render.isSome ↔ cell.subsumedBy = none)
  unvisited : ∀ p cell, g.get? p = some cell → ¬p.Before next → cell.render = none
  covered : ∀ p cell owner, g.get? p = some cell → cell.subsumedBy = some owner →
    owner.Before next ∧ g.Covers owner p
  row : g.places next.row next.col = firstPlaces next.row x
  rows : ∀ row, row < next.row → ∃ n, g.places row g.width = firstPlaces row n

theorem places_congr {g h : Grid} {row count : Nat}
    (heq : ∀ col, col < count → h.get? ⟨row, col⟩ = g.get? ⟨row, col⟩) :
    h.places row count = g.places row count := by
  unfold places
  apply List.filterMap_congr
  intro col hcol
  rw [heq col (List.mem_range.1 hcol)]

theorem places_succ (g : Grid) (row count : Nat) :
    g.places row (count + 1) =
      g.places row count ++ ((g.get? ⟨row, count⟩).bind (·.render)).toList := by
  unfold places
  rw [List.range_succ, List.filterMap_append]
  rfl

theorem firstPlaces_succ (row count : Nat) :
    firstPlaces row (count + 1) = firstPlaces row count ++ [⟨count, row⟩] := by
  unfold firstPlaces
  rw [List.range_succ, List.map_append]
  rfl

/-- The grid without marks is the start of a scan. -/
theorem scanned_clearMarks (g : Grid) : Scanned g ⟨0, 0⟩ 0 (g.map Cell.clearMarks) where
  same := by
    apply ext_get? (by simp) (by simp)
    intro p
    rw [get?_map, get?_map, Option.map_map]
    rfl
  visited p cell _ hb := by
    simp only [Coord.Before] at hb
    omega
  unvisited p cell h _ := by
    rw [get?_map, Option.map_eq_some_iff] at h
    obtain ⟨_, -, rfl⟩ := h
    rfl
  covered p cell owner h hcov := by
    rw [get?_map, Option.map_eq_some_iff] at h
    obtain ⟨_, -, rfl⟩ := h
    cases hcov
  row := rfl
  rows row h := by
    simp only at h
    omega

/-- A scan that has reached the end of a row goes on with the next one. -/
theorem Scanned.nextRow {g₀ g : Grid} {row x : Nat} (h : Scanned g₀ ⟨row, g.width⟩ x g) :
    Scanned g₀ ⟨row + 1, 0⟩ 0 g := by
  -- Inside the grid, a cell is before the next row if it is before the end of this one.
  have hbefore : ∀ p cell, g.get? p = some cell →
      (p.Before ⟨row + 1, 0⟩ ↔ p.Before ⟨row, g.width⟩) := by
    intro p cell hcell
    have hin := get?_isSome_iff.1 (Option.isSome_iff_exists.2 ⟨cell, hcell⟩)
    rw [contains_iff] at hin
    simp only [Coord.Before]
    omega
  refine ⟨h.same, ?_, ?_, ?_, rfl, ?_⟩
  · intro p cell hcell hb
    exact h.visited p cell hcell ((hbefore p cell hcell).1 hb)
  · intro p cell hcell hb
    exact h.unvisited p cell hcell fun hb' => hb ((hbefore p cell hcell).2 hb')
  · intro p cell owner hcell hcov
    obtain ⟨hb, hcovers⟩ := h.covered p cell owner hcell hcov
    obtain ⟨_, ownerCell, howner, _⟩ := hcovers
    exact ⟨(hbefore owner ownerCell howner).2 hb, (h.covered p cell owner hcell hcov).2⟩
  · intro r hr
    rcases Nat.lt_succ_iff_lt_or_eq.1 hr with hlt | heq
    · exact h.rows r hlt
    · subst heq
      exact ⟨x, h.row⟩

/-! ## One visit -/

/-- What a visit to an uncovered cell does to the grid. -/
def own (g : Grid) (p : Coord) (cell : Cell) (x : Nat) : Grid :=
  coverRegion p cell.height cell.width
    (g.modify p fun cell => { cell with render := some ⟨x, p.row⟩ })

theorem visit_of_free {g : Grid} {row col x : Nat} {cell : Cell}
    (hcell : g.get? ⟨row, col⟩ = some cell) (hfree : cell.subsumedBy = none) :
    visit row (g, x) col = (g.own ⟨row, col⟩ cell x, x + 1) := by
  simp only [visit, hcell, hfree, Option.isSome_none, Bool.false_eq_true, if_false]
  rfl

theorem visit_of_covered {g : Grid} {row col x : Nat} {cell : Cell}
    (hcell : g.get? ⟨row, col⟩ = some cell) (hcov : cell.subsumedBy ≠ none) :
    visit row (g, x) col = (g, x) := by
  rw [← Option.isSome_iff_ne_none] at hcov
  simp only [visit, hcell, hcov, if_true]

/-- The three things that can happen to a cell when an owner is visited. -/
theorem get?_own {g : Grid} {p : Coord} {cell : Cell} (x : Nat) (hcell : g.get? p = some cell)
    (hfree : cell.subsumedBy = none) (q : Coord) :
    (q = p ∧ (g.own p cell x).get? q = some { cell with render := some ⟨x, p.row⟩ }) ∨
      (q ≠ p ∧ (g.own p cell x).get? q = g.get? q) ∨
      (q ≠ p ∧ InRegion p cell.height cell.width q ∧ ∃ c, g.get? q = some c ∧
        c.subsumedBy = none ∧ (g.own p cell x).get? q = some (cover p c)) := by
  have hp : (g.modify p fun cell => { cell with render := some ⟨x, p.row⟩ }).get? p =
      some { cell with render := some ⟨x, p.row⟩ } := by
    rw [get?_modify, if_pos rfl, hcell]
    rfl
  have hw : 0 < cell.width := by
    unfold Cell.width
    split <;> omega
  -- The owner has its place already when its region is covered.
  rw [own, get?_coverRegion hw ⟨_, hp, hfree⟩]
  by_cases heq : q = p
  · subst heq
    refine .inl ⟨rfl, ?_⟩
    rw [if_neg (fun h => h.2.1 rfl), hp]
  · have hq : (g.modify p fun cell => { cell with render := some ⟨x, p.row⟩ }).get? q =
        g.get? q := by
      rw [get?_modify, if_neg (Ne.symm heq)]
    rw [hq]
    split
    · rename_i hcov
      obtain ⟨hin, -, hrun⟩ := hcov
      obtain ⟨c, hc, hnone⟩ := hrun q.col hin.2.1 (Nat.le_refl _)
      rw [show (⟨q.row, q.col⟩ : Coord) = q from rfl, hq] at hc
      exact .inr (.inr ⟨heq, hin, c, hc, hnone, by rw [hc]; rfl⟩)
    · exact .inr (.inl ⟨heq, rfl⟩)

/-- An owner leaves the cells before it as they are. -/
theorem get?_own_of_before {g : Grid} {p : Coord} {cell : Cell} (x : Nat)
    (hcell : g.get? p = some cell) (hfree : cell.subsumedBy = none) {q : Coord}
    (hb : q.Before p) : (g.own p cell x).get? q = g.get? q := by
  rcases get?_own x hcell hfree q with ⟨rfl, -⟩ | ⟨-, heq⟩ | ⟨-, hin, -⟩
  · simp only [Coord.Before] at hb
    omega
  · exact heq
  · simp only [Coord.Before] at hb
    simp only [InRegion] at hin
    omega

@[simp] theorem height_own (g : Grid) (p : Coord) (cell : Cell) (x : Nat) :
    (g.own p cell x).height = g.height := by
  rw [own, height_coverRegion, height_modify]

@[simp] theorem width_own (g : Grid) (p : Coord) (cell : Cell) (x : Nat) :
    (g.own p cell x).width = g.width := by
  rw [own, width_coverRegion, width_modify]

theorem map_clearMarks_own {g : Grid} {p : Coord} {cell : Cell} (x : Nat)
    (hcell : g.get? p = some cell) (hfree : cell.subsumedBy = none) :
    (g.own p cell x).map Cell.clearMarks = g.map Cell.clearMarks := by
  apply ext_get? (by simp) (by simp)
  intro q
  rw [get?_map, get?_map]
  rcases get?_own x hcell hfree q with ⟨rfl, heq⟩ | ⟨-, heq⟩ | ⟨-, -, c, hc, -, heq⟩
  · rw [heq, hcell]
    rfl
  · rw [heq]
  · rw [heq, hc]
    rfl

/-- A visit to an uncovered cell: it becomes an owner and covers cells behind it. -/
theorem Scanned.own {g₀ g : Grid} {row col x : Nat} {cell : Cell}
    (h : Scanned g₀ ⟨row, col⟩ x g) (hcell : g.get? ⟨row, col⟩ = some cell)
    (hfree : cell.subsumedBy = none) :
    Scanned g₀ ⟨row, col + 1⟩ (x + 1) (g.own ⟨row, col⟩ cell x) := by
  have hcases := get?_own x hcell hfree
  have hframe := fun q => @get?_own_of_before g ⟨row, col⟩ cell x hcell hfree q
  refine ⟨?_, ?_, ?_, ?_, ?_, ?_⟩
  -- `same`: only marks change.
  · rw [map_clearMarks_own x hcell hfree, h.same]
  -- `visited`: the owner is rendered, and nothing before it is covered anymore.
  · intro p c hc hb
    rcases hcases p with ⟨rfl, heq⟩ | ⟨hne, heq⟩ | ⟨hne, hin, -⟩
    · rw [heq, Option.some.injEq] at hc
      subst hc
      exact ⟨fun _ => hfree, fun _ => rfl⟩
    · rw [heq] at hc
      rcases Coord.before_next_iff.1 hb with hb | rfl
      · exact h.visited p c hc hb
      · exact absurd rfl hne
    · rcases Coord.before_next_iff.1 hb with hb | rfl
      · simp only [Coord.Before] at hb
        simp only [InRegion] at hin
        omega
      · exact absurd rfl hne
  -- `unvisited`: covering does not render.
  · intro p c hc hb
    rw [Coord.before_next_iff, not_or] at hb
    rcases hcases p with ⟨rfl, -⟩ | ⟨-, heq⟩ | ⟨-, -, c', hc', -, heq⟩
    · exact absurd rfl hb.2
    · rw [heq] at hc
      exact h.unvisited p c hc hb.1
    · rw [heq, Option.some.injEq] at hc
      subst hc
      exact h.unvisited p c' hc' hb.1
  -- `covered`: earlier owners stay as they are, and the new marks point to the new owner.
  · intro p c owner hc hcov
    rcases hcases p with ⟨rfl, heq⟩ | ⟨-, heq⟩ | ⟨hne, hin, c', -, -, heq⟩
    · rw [heq, Option.some.injEq] at hc
      subst hc
      rw [hfree] at hcov
      cases hcov
    · rw [heq] at hc
      obtain ⟨hb, hbefore, ownerCell, howner, hregion⟩ := h.covered p c owner hc hcov
      refine ⟨Coord.before_next_iff.2 (.inl hb), hbefore, ownerCell, ?_, hregion⟩
      rw [hframe owner hb, howner]
    · rw [heq, Option.some.injEq] at hc
      subst hc
      obtain rfl : ⟨row, col⟩ = owner := Option.some.inj hcov
      have hbefore : Coord.Before ⟨row, col⟩ p := by
        have hcol : p.row = row → p.col ≠ col := fun hr hc' => hne (by cases p; simp_all)
        simp only [InRegion] at hin
        simp only [Coord.Before]
        omega
      refine ⟨Coord.before_next_iff.2 (.inr rfl), hbefore, ?_⟩
      rcases hcases ⟨row, col⟩ with ⟨-, heq'⟩ | ⟨hne', -⟩ | ⟨hne', -⟩
      · exact ⟨_, heq', hfree, hin⟩
      · exact absurd rfl hne'
      · exact absurd rfl hne'
  -- `row`: one more place, the next one.
  · rw [places_succ, firstPlaces_succ]
    rcases hcases ⟨row, col⟩ with ⟨-, heq⟩ | ⟨hne, -⟩ | ⟨hne, -⟩
    · rw [heq, places_congr fun j hj => hframe ⟨row, j⟩ (.inr ⟨rfl, hj⟩), h.row]
      rfl
    · exact absurd rfl hne
    · exact absurd rfl hne
  -- `rows`: finished rows lie before the owner.
  · intro r hr
    rw [width_own, places_congr fun j _ => hframe ⟨r, j⟩ (.inl hr)]
    exact h.rows r hr

/-- A visit to a covered cell: it is not rendered. -/
theorem Scanned.skip {g₀ g : Grid} {row col x : Nat} {cell : Cell}
    (h : Scanned g₀ ⟨row, col⟩ x g) (hcell : g.get? ⟨row, col⟩ = some cell)
    (hcov : cell.subsumedBy ≠ none) : Scanned g₀ ⟨row, col + 1⟩ x g := by
  -- The cell has not been visited yet, so it has no place.
  have hrender : cell.render = none := by
    refine h.unvisited _ cell hcell fun hb => ?_
    simp only [Coord.Before] at hb
    omega
  refine ⟨h.same, ?_, ?_, ?_, ?_, h.rows⟩
  · intro p c hc hb
    rcases Coord.before_next_iff.1 hb with hb | rfl
    · exact h.visited p c hc hb
    · rw [hcell, Option.some.injEq] at hc
      subst hc
      rw [hrender]
      exact ⟨fun h => (by cases h), fun h => absurd h hcov⟩
  · intro p c hc hb
    exact h.unvisited p c hc fun hb' => hb (Coord.before_next_iff.2 (.inl hb'))
  · intro p c owner hc hcov'
    obtain ⟨hb, hcovers⟩ := h.covered p c owner hc hcov'
    exact ⟨Coord.before_next_iff.2 (.inl hb), hcovers⟩
  · rw [places_succ, hcell, Option.bind_some, hrender]
    simpa using h.row

/-! ## The whole scan -/

theorem Scanned.height_eq {g₀ g : Grid} {next : Coord} {x : Nat} (h : Scanned g₀ next x g) :
    g.height = g₀.height := by
  simpa using congrArg Grid.height h.same

theorem Scanned.width_eq {g₀ g : Grid} {next : Coord} {x : Nat} (h : Scanned g₀ next x g) :
    g.width = g₀.width := by
  simpa using congrArg Grid.width h.same

theorem Scanned.size_eq {g₀ g : Grid} {next : Coord} {x : Nat} (h : Scanned g₀ next x g) :
    g.height = g₀.height ∧ g.width = g₀.width :=
  ⟨h.height_eq, h.width_eq⟩

/-- What holds before the first visit and is kept by visits to uncovered cells, by visits to covered
    ones and by going on with the next row, holds when spans have been resolved. -/
theorem resolve_induction (g : Grid) {P : Coord → Nat → Grid → Prop}
    (size : ∀ {next : Coord} {x : Nat} {h : Grid}, P next x h →
      h.height = g.height ∧ h.width = g.width)
    (start : P ⟨0, 0⟩ 0 (g.map Cell.clearMarks))
    (own : ∀ {h : Grid} {row col x : Nat} {cell : Cell}, P ⟨row, col⟩ x h →
      h.get? ⟨row, col⟩ = some cell → cell.subsumedBy = none →
        P ⟨row, col + 1⟩ (x + 1) (h.own ⟨row, col⟩ cell x))
    (skip : ∀ {h : Grid} {row col x : Nat} {cell : Cell}, P ⟨row, col⟩ x h →
      h.get? ⟨row, col⟩ = some cell → cell.subsumedBy ≠ none → P ⟨row, col + 1⟩ x h)
    (nextRow : ∀ {h : Grid} {row x : Nat}, P ⟨row, h.width⟩ x h → P ⟨row + 1, 0⟩ 0 h) :
    P ⟨g.height, 0⟩ 0 g.resolve := by
  have hvisit : ∀ row col (s : Grid × Nat), row < g.height → col < g.width →
      P ⟨row, col⟩ s.2 s.1 → P ⟨row, col + 1⟩ (visit row s col).2 (visit row s col).1 := by
    rintro row col ⟨h, x⟩ hrow hcol hP
    have hcell := get?_of_contains (g := h) (p := ⟨row, col⟩)
      (contains_iff.2 ⟨by rw [(size hP).1]; exact hrow, by rw [(size hP).2]; exact hcol⟩)
    by_cases hfree : (h.cellAt ⟨row, col⟩).subsumedBy = none
    · rw [visit_of_free hcell hfree]
      exact own hP hcell hfree
    · rw [visit_of_covered hcell hfree]
      exact skip hP hcell hfree
  rw [resolve]
  refine List.foldl_range_induction (fun row h => P ⟨row, 0⟩ 0 h) g.height start ?_
  intro row h hrow hP
  -- The second component of the state counts the owners of the row.
  have hend : P ⟨row, h.width⟩ ((List.range h.width).foldl (visit row) (h, 0)).2 (visitRow h row) :=
    List.foldl_range_induction (fun col (s : Grid × Nat) => P ⟨row, col⟩ s.2 s.1) h.width hP
      fun col s hcol => hvisit row col s hrow (by rw [← (size hP).2]; exact hcol)
  rw [(size hP).2, ← (size hend).2] at hend
  exact nextRow hend

/-- When spans have been resolved, all cells have been visited. -/
theorem scanned_resolve (g : Grid) : Scanned g ⟨g.height, 0⟩ 0 g.resolve :=
  resolve_induction g Scanned.size_eq (scanned_clearMarks g) Scanned.own Scanned.skip
    Scanned.nextRow

@[simp] theorem height_resolve (g : Grid) : g.resolve.height = g.height :=
  (scanned_resolve g).height_eq

@[simp] theorem width_resolve (g : Grid) : g.resolve.width = g.width :=
  (scanned_resolve g).width_eq

/-- Resolving spans changes nothing but the marks. -/
theorem map_clearMarks_resolve (g : Grid) :
    g.resolve.map Cell.clearMarks = g.map Cell.clearMarks :=
  (scanned_resolve g).same

/-- The marks from before do not matter. -/
theorem resolve_congr {g h : Grid} (heq : g.map Cell.clearMarks = h.map Cell.clearMarks) :
    g.resolve = h.resolve := by
  have hheight : g.height = h.height := by
    simpa using congrArg Grid.height heq
  rw [resolve, resolve, heq, hheight]

theorem before_end {g : Grid} {p : Coord} {cell : Cell} (h : g.get? p = some cell) :
    p.Before ⟨g.height, 0⟩ := by
  have hin := get?_isSome_iff.1 (Option.isSome_iff_exists.2 ⟨cell, h⟩)
  exact .inl (contains_iff.1 hin).1

/-- A cell of a resolved grid is rendered if and only if it is not covered. -/
theorem render_isSome_iff {g : Grid} {p : Coord} {cell : Cell}
    (h : g.resolve.get? p = some cell) : cell.render.isSome ↔ cell.subsumedBy = none :=
  (scanned_resolve g).visited p cell h (height_resolve g ▸ before_end h)

/-- A mark of a resolved grid points back to an owner whose region it lies in. -/
theorem covers_of_mark {g : Grid} {p owner : Coord} (h : g.resolve.mark? p = some owner) :
    g.resolve.Covers owner p := by
  rw [mark?, Option.bind_eq_some_iff] at h
  obtain ⟨cell, hcell, hcov⟩ := h
  exact ((scanned_resolve g).covered p cell owner hcell hcov).2

/-- The places of a row of a resolved grid count up from zero. -/
theorem places_resolve {g : Grid} {row : Nat} (h : row < g.height) :
    ∃ n, g.resolve.places row g.width = firstPlaces row n := by
  have := (scanned_resolve g).rows row h
  rwa [width_resolve] at this

/-! ## Following the marks -/

theorem Covers.mark?_eq_none {g : Grid} {owner p : Coord} (h : g.Covers owner p) :
    g.mark? owner = none := by
  obtain ⟨-, cell, hcell, hfree, -⟩ := h
  rw [mark?, hcell]
  exact hfree

theorem Covers.contains {g : Grid} {owner p : Coord} (h : g.Covers owner p) :
    g.contains owner = true := by
  obtain ⟨-, cell, hcell, -⟩ := h
  exact get?_isSome_iff.1 (Option.isSome_iff_exists.2 ⟨cell, hcell⟩)

theorem follow_of_free {g : Grid} {p : Coord} (h : g.mark? p = none) (steps : Nat) :
    g.follow steps p = p := by
  cases steps with
  | zero => rfl
  | succ steps =>
    rw [follow]
    simp only [h]

/-- A mark that points to an uncovered cell is followed once. -/
theorem follow_of_covers {g : Grid} {owner p : Coord} (h : g.Covers owner p)
    (hmark : g.mark? p = some owner) (steps : Nat) : g.follow (steps + 1) p = owner := by
  rw [follow]
  simp only [hmark, h.contains, if_true]
  exact follow_of_free h.mark?_eq_none steps

theorem owner?_of_free {g : Grid} {p : Coord} (hin : g.contains p = true)
    (h : g.mark? p = none) : g.owner? p = some p := by
  rw [owner?, if_pos hin, follow_of_free h]

theorem owner?_of_covers {g : Grid} {owner p : Coord} (hin : g.contains p = true)
    (h : g.Covers owner p) (hmark : g.mark? p = some owner) : g.owner? p = some owner := by
  have hcells : 0 < g.height * g.width := by
    rw [contains_iff] at hin
    exact Nat.mul_pos (by omega) (by omega)
  obtain ⟨steps, hsteps⟩ : ∃ steps, g.height * g.width = steps + 1 :=
    ⟨_, (Nat.succ_pred_eq_of_pos hcells).symm⟩
  rw [owner?, if_pos hin, hsteps, follow_of_covers h hmark]

/-- Resolving spans gives every cell either a place or an owner.  An owner comes before the cells
    it covers, is reached from them in one step and covers nothing outside its spans.  The places
    of a row count up from zero.  Nothing but the marks changes, and the marks from before do not
    matter. -/
theorem resolve_marks (g : Grid) :
    (∀ p cell, g.resolve.get? p = some cell →
      (cell.render.isSome ∧ cell.subsumedBy = none ∧ g.resolve.owner? p = some p) ∨
        (cell.render = none ∧ ∃ owner ownerCell, cell.subsumedBy = some owner ∧
          g.resolve.get? owner = some ownerCell ∧ ownerCell.render.isSome ∧
          ownerCell.subsumedBy = none ∧ owner.Before p ∧
          InRegion owner ownerCell.height ownerCell.width p ∧
          g.resolve.follow 1 p = owner ∧ g.resolve.owner? p = some owner)) ∧
    (∀ row, row < g.height → ∃ n,
      g.resolve.places row g.width = (List.range n).map fun x => ⟨x, row⟩) ∧
    (g.resolve.height = g.height ∧ g.resolve.width = g.width ∧
      ∀ p, (g.resolve.get? p).map Cell.clearMarks = (g.get? p).map Cell.clearMarks) ∧
    (∀ h : Grid, h.map Cell.clearMarks = g.map Cell.clearMarks → h.resolve = g.resolve) ∧
    g.resolve.resolve = g.resolve := by
  refine ⟨?_, fun row hrow => places_resolve hrow, ⟨by simp, by simp, ?_⟩,
    fun h heq => resolve_congr heq, resolve_congr (map_clearMarks_resolve g)⟩
  · intro p cell hcell
    have hin := get?_isSome_iff.1 (Option.isSome_iff_exists.2 ⟨cell, hcell⟩)
    have hmark : g.resolve.mark? p = cell.subsumedBy := by
      rw [mark?, hcell]
      rfl
    have hrender := render_isSome_iff hcell
    -- An uncovered cell is its own owner; a covered one is one step away from an owner.
    cases hcov : cell.subsumedBy with
    | none =>
      rw [hcov] at hmark
      exact .inl ⟨hrender.2 hcov, rfl, owner?_of_free hin hmark⟩
    | some owner =>
      rw [hcov] at hmark
      have hcovers := covers_of_mark hmark
      obtain ⟨hbefore, ownerCell, howner, hfree, hregion⟩ := id hcovers
      refine .inr ⟨?_, owner, ownerCell, rfl, howner, (render_isSome_iff howner).2 hfree, hfree,
        hbefore, hregion, follow_of_covers hcovers hmark 0, owner?_of_covers hin hcovers hmark⟩
      rw [← Option.not_isSome_iff_eq_none, hrender, hcov]
      intro hnone
      cases hnone
  · intro p
    rw [← get?_map, ← get?_map, map_clearMarks_resolve]

end Grid

end TableGrid
