import TableGrid.Proofs.Grid.Resolve

/-!
# What the marks depend on

Which cells are rendered depends on the spans alone.  `Cell.shape` drops everything but spans and
marks; resolving spans commutes with it, and so with any change of a cell that it does not see, such
as writing a content.

## Key results

- `resolve_map_shape`: the marks depend on the shape of the cells
- `map_shape_modify`, `map_shape_setContent`: what does not matter for the shape
- `resolve_modify`, `resolve_setContent`: what may be written before or after spans are resolved
-/

namespace TableGrid

namespace Cell

/-- The spans and marks of a cell. -/
def shape (cell : Cell) : Cell :=
  { colspan := cell.colspan
    rowspan := cell.rowspan
    render := cell.render
    subsumedBy := cell.subsumedBy }

/-- A cell is known by its shape and what is left of it without marks. -/
theorem ext_shape {c d : Cell} (hshape : c.shape = d.shape)
    (hclear : c.clearMarks = d.clearMarks) : c = d := by
  cases c
  cases d
  simp only [shape, clearMarks, mk.injEq] at hshape hclear ⊢
  exact ⟨hclear.1, hclear.2.1, hclear.2.2.1, hclear.2.2.2.1, hclear.2.2.2.2.1,
    hshape.2.2.2.2.2.1, hshape.2.2.2.2.2.2⟩

end Cell

namespace Grid

theorem map_modify {f k : Cell → Cell} (h : ∀ cell, k (f cell) = f (k cell)) (g : Grid)
    (p : Coord) : (g.modify p f).map k = (g.map k).modify p f := by
  apply ext_get? (by simp) (by simp)
  intro q
  rw [get?_map, get?_modify, get?_modify, get?_map]
  split
  · cases g.get? q with
    | none => rfl
    | some cell => exact congrArg some (h cell)
  · rfl

theorem coverRun_map_shape (owner : Coord) (count : Nat) (p : Coord) (g : Grid) :
    coverRun owner count p (g.map Cell.shape) = (coverRun owner count p g).map Cell.shape := by
  induction count generalizing p g with
  | zero => rfl
  | succ count ih =>
    rw [coverRun, coverRun, get?_map]
    cases g.get? p with
    | none => rfl
    | some cell =>
      -- Whether the run goes on depends on the mark, which the shape keeps.
      simp only [Option.map_some, Cell.shape]
      split
      · rfl
      · rw [← ih, map_modify (k := Cell.shape) fun _ => by rfl]

theorem coverRegion_map_shape (owner : Coord) (height width : Nat) (g : Grid) :
    coverRegion owner height width (g.map Cell.shape) =
      (coverRegion owner height width g).map Cell.shape := by
  rw [coverRegion, coverRegion, height_map]
  apply List.foldl_hom
  intro g i
  rw [coverRow, coverRow]
  split <;> exact coverRun_map_shape _ _ _ _

theorem visit_map_shape (row : Nat) (state : Grid × Nat) (col : Nat) :
    visit row (state.1.map Cell.shape, state.2) col =
      ((visit row state col).1.map Cell.shape, (visit row state col).2) := by
  obtain ⟨g, x⟩ := state
  simp only [visit, get?_map]
  cases g.get? ⟨row, col⟩ with
  | none => rfl
  | some cell =>
    simp only [Option.map_some]
    show (if cell.subsumedBy.isSome then _ else _) = _
    split
    · rfl
    · rw [← coverRegion_map_shape, map_modify (k := Cell.shape) fun _ => by rfl]
      rfl

theorem visitRow_map_shape (g : Grid) (row : Nat) :
    visitRow (g.map Cell.shape) row = (visitRow g row).map Cell.shape := by
  rw [visitRow, visitRow, width_map]
  -- Visits commute with dropping contents, so the whole row does.
  have hfold := @List.foldl_hom _ _ _ (fun s : Grid × Nat => (s.1.map Cell.shape, s.2)) _ _
    (List.range g.width) (g, 0) (visit_map_shape row)
  exact congrArg Prod.fst hfold

/-- The marks depend on the shape of the cells. -/
theorem resolve_map_shape (g : Grid) :
    (g.map Cell.shape).resolve = g.resolve.map Cell.shape := by
  have hclear : (g.map Cell.shape).map Cell.clearMarks =
      (g.map Cell.clearMarks).map Cell.shape := by
    apply ext_get? (by simp) (by simp)
    intro p
    simp only [get?_map, Option.map_map]
    rfl
  rw [resolve, resolve, hclear, height_map]
  exact List.foldl_hom _ fun g row => visitRow_map_shape g row

/-- A change of a cell that keeps its spans and marks keeps the shape. -/
theorem map_shape_modify {f : Cell → Cell} (h : ∀ cell, (f cell).shape = cell.shape) (g : Grid)
    (p : Coord) : (g.modify p f).map Cell.shape = g.map Cell.shape := by
  apply ext_get? (by simp) (by simp)
  intro q
  rw [get?_map, get?_map, get?_modify]
  split
  · cases g.get? q with
    | none => rfl
    | some cell => exact congrArg some (h cell)
  · rfl

/-- A cell may be changed before or after spans are resolved if that keeps its spans, and its marks
    do not matter for the change. -/
theorem resolve_modify {f : Cell → Cell} (hshape : ∀ cell, (f cell).shape = cell.shape)
    (hclear : ∀ cell, (f cell).clearMarks = f cell.clearMarks) (g : Grid) (p : Coord) :
    (g.modify p f).resolve = g.resolve.modify p f := by
  -- The shapes agree since they do not see the change, the rest since it has no marks.
  have hs : (g.modify p f).resolve.map Cell.shape = (g.resolve.modify p f).map Cell.shape := by
    rw [← resolve_map_shape, map_shape_modify hshape, map_shape_modify hshape, resolve_map_shape]
  have hc : (g.modify p f).resolve.map Cell.clearMarks =
      (g.resolve.modify p f).map Cell.clearMarks := by
    rw [map_clearMarks_resolve, map_modify hclear, map_modify hclear, map_clearMarks_resolve]
  apply ext_get? (by simp) (by simp)
  intro q
  -- Both together determine each cell.
  have hsq := congrArg (·.get? q) hs
  have hcq := congrArg (·.get? q) hc
  simp only [get?_map] at hsq hcq
  cases hl : (g.modify p f).resolve.get? q with
  | none =>
    rw [hl, Option.map_none] at hsq
    exact (Option.map_eq_none_iff.1 hsq.symm).symm
  | some cell =>
    rw [hl, Option.map_some] at hsq hcq
    obtain ⟨cell', hr, hshape'⟩ := Option.map_eq_some_iff.1 hsq.symm
    rw [hr, Option.map_some, Option.some.injEq] at hcq
    rw [hr, Cell.ext_shape hshape'.symm hcq]

/-- A content does not matter for the shape. -/
theorem map_shape_setContent (g : Grid) (p : Coord) (c : Content) :
    (g.setContent p c).map Cell.shape = g.map Cell.shape :=
  map_shape_modify (fun _ => by rfl) g p

/-- A content may be written before or after spans are resolved. -/
theorem resolve_setContent (g : Grid) (p : Coord) (c : Content) :
    (g.setContent p c).resolve = g.resolve.setContent p c :=
  resolve_modify (fun _ => by rfl) (fun _ => by rfl) g p

end Grid

end TableGrid
