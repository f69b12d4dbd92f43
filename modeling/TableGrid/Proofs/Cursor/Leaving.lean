import TableGrid.Grid.Build
import TableGrid.Proofs.Cursor.Lock

/-!
# Leaving the active cell

A move starts where its line meets the start of the active cell.  Where spans intersect, that place
may belong to another owner, and the step from the edge of this owner may lead to the active cell
again.  Then the cursor is stuck.  In all other cases a move that does not cross the border of the
grid makes another cell active.

## Key results

- `onLine_run`: the active cell has a cell of each line that the cursor would follow
- `not_spans_nextIndex`: a step from the edge of an owner leads out of its region
- `LedBack.moves`: a cursor that is led back once is stuck
- `move_stays_iff`: when a move leaves the active cell as it is
-/

namespace TableGrid

/-- Whether a step from a cell in a direction crosses the border of the grid. -/
def Grid.AtEdge (g : Grid) (d : Direction) (p : Coord) : Prop :=
  match d with
  | .up | .left => d.axis.along p = 0
  | .down | .right => g.length d.axis ≤ d.axis.along p + (g.cellAt p).extent d.axis

instance (g : Grid) (d : Direction) (p : Coord) : Decidable (g.AtEdge d p) :=
  match d with
  | .up => inferInstanceAs (Decidable (p.row = 0))
  | .left => inferInstanceAs (Decidable (p.col = 0))
  | .down => inferInstanceAs (Decidable (g.height ≤ p.row + (g.cellAt p).height))
  | .right => inferInstanceAs (Decidable (g.width ≤ p.col + (g.cellAt p).width))

namespace Cursor

variable {c : Cursor} {g : Grid} {active other owner p : Coord} {axis : Axis}
  {d : Direction} {extend : Bool} {n : Nat}

/-! ## The active cell and its lines -/

/-- Whether the active cell is the owner of a cell of each line that the cursor would follow. -/
def OnLine (c : Cursor) (g : Grid) : Prop :=
  ∀ active, c.active? = some active → ∀ axis : Axis,
    ∃ i, g.owner? (axis.coord (c.line axis active) i) = some active

theorem onLine_click (hg : g.Settled) {answer : Coord × Cursor}
    (hclick : c.click? g p extend = some answer) : answer.2.OnLine g := by
  obtain ⟨owner, howner, rfl⟩ := Option.map_eq_some_iff.1 hclick
  have hself := Grid.owner?_of_mem_owners (hg p owner howner)
  intro active hactive axis
  rw [active?_place, Option.some.injEq] at hactive
  subst hactive
  have hunlocked : ∀ lock, ({ c with lock := none } : Cursor).lock = some lock → lock.axis ≠ axis :=
    fun _ hlock => nomatch hlock
  rw [line_place, line_of_unlocked hunlocked]
  exact ⟨axis.along owner, by rwa [Axis.coord_across_along]⟩

/-- A line is locked along one axis only, and along the other one the line is that of the active
    cell. -/
theorem Follows.onLine (h : c.Follows g axis n) (hg : g.Settled) : c.OnLine g := by
  obtain ⟨active, i, hactive, howner⟩ := h.stands
  have hself := Grid.owner?_of_mem_owners (hg _ _ howner)
  intro active' hactive' axis'
  obtain rfl : active = active' := Option.some.inj (hactive.symm.trans hactive')
  obtain hline | ⟨lock, hlocked, rfl, hline⟩ := c.line_cases axis' active
  · exact ⟨axis'.along active, by rwa [hline, Axis.coord_across_along]⟩
  · obtain rfl := Option.some.inj (h.lock.symm.trans hlocked)
    exact ⟨i, by rwa [hline]⟩

/-- A cursor on its lines moves from inside of the grid. -/
theorem OnLine.contains_start (h : c.OnLine g) (hg : g.Settled)
    (hactive : c.active? = some active) (axis : Axis) :
    g.contains (axis.coord (c.line axis active) (axis.along active)) = true := by
  obtain ⟨i, hi⟩ := h active hactive axis
  exact contains_coord_along hg hi

theorem OnLine.move (h : c.OnLine g) (hg : g.Settled) (d : Direction) (extend : Bool) :
    (c.move g d extend).2.OnLine g := by
  cases hactive : c.active? with
  | none =>
    unfold Cursor.move
    simpa only [hactive] using h
  | some active =>
    exact (follows_move hg hactive (h.contains_start hg hactive d.axis) extend).1.onLine hg

theorem onLine_run (hg : g.Settled) (gestures : List Gesture) : (run g gestures).OnLine g := by
  refine run_induction (P := (OnLine · g)) ?_ ?_ ?_ gestures
  · intro active hactive
    cases hactive
  · exact fun _ _ _ _ hclick => onLine_click hg hclick
  · exact fun _ d extend honLine => honLine.move hg d extend

/-! ## Steps -/

/-- A step from the edge of an owner leads out of its region unless it crosses the border. -/
theorem not_spans_nextIndex (hinner : ¬g.AtEdge d owner) :
    ¬g.Spans owner (d.axis.coord n (nextIndex g d owner)) := by
  intro hspans
  -- On its lines the region of an owner reaches from its start to its edge.
  obtain ⟨-, hfirst, hlast⟩ := Grid.spans_coord_iff.1 hspans
  cases d with
  | up | left =>
    simp only [Grid.AtEdge] at hinner
    simp only [nextIndex, before, if_neg hinner] at hfirst
    omega
  | down | right =>
    simp only [Grid.AtEdge, Nat.not_le] at hinner
    simp only [nextIndex, wrapped, if_pos hinner] at hlast
    omega

/-- Whether moves along a line are led back: the place that they start from belongs to another
    owner, although it is in the region of the active cell too, and the step from the edge of that
    owner leads to the active cell. -/
structure LedBack (g : Grid) (d : Direction) (n : Nat) (active other : Coord) : Prop where
  ne : other ≠ active
  start : g.owner? (d.axis.coord n (d.axis.along active)) = some other
  spans : g.Spans active (d.axis.coord n (d.axis.along active))
  returns : g.owner? (d.axis.coord n (nextIndex g d other)) = some active

/-- Where a move leads a cursor on its lines. -/
theorem OnLine.exists_target (h : c.OnLine g) (hg : g.Settled) (hactive : c.active? = some active)
    (d : Direction) (extend : Bool) :
    ∃ owner target,
      g.owner? (d.axis.coord (c.line d.axis active) (d.axis.along active)) = some owner ∧
      g.owner? (d.axis.coord (c.line d.axis active) (nextIndex g d owner)) = some target ∧
      c.move g d extend = (some target,
        { c with lock := some ⟨d.axis, c.line d.axis active⟩ }.place target extend) := by
  have hin := h.contains_start hg hactive d.axis
  rw [← source_eq hin]
  exact Cursor.exists_target hg hactive hin extend

/-- A cursor that is led back once is led back again and again. -/
theorem LedBack.moves (h : LedBack g d n active other) (hg : g.Settled) (hc : c.OnLine g)
    (hactive : c.active? = some active) (hline : c.line d.axis active = n) (flags : List Bool) :
    (c.moves g d flags).active? = some active := by
  induction flags generalizing c with
  | nil => exact hactive
  | cons extend flags ih =>
    obtain ⟨owner, target, howner, htarget, heq⟩ := hc.exists_target hg hactive d extend
    rw [hline] at howner htarget heq
    obtain rfl : other = owner := Option.some.inj (h.start.symm.trans howner)
    obtain rfl : active = target := Option.some.inj (h.returns.symm.trans htarget)
    have hnext := hc.move hg d extend
    rw [moves, List.foldl_cons, heq]
    rw [heq] at hnext
    -- The move has locked the line that it followed, so the next one starts at the same place.
    exact ih hnext active?_place (line_of_lock lock_place active)

/-- Moves are not led back where no spans intersect. -/
theorem not_ledBack (hapart : g.SpansApart) : ¬LedBack g d n active other := by
  intro h
  have howner := hapart _ _ h.spans (Grid.contains_of_owner? h.start)
  rw [h.start, Option.some.injEq] at howner
  exact h.ne howner

/-- A move that does not cross the border of the grid makes another cell active unless it is led
    back; this takes intersecting spans, and then the cursor is stuck. -/
theorem move_stays_iff (g : Grid) (gestures : List Gesture)
    (hactive : (run g.resolve gestures).active? = some active)
    (hinner : ¬g.resolve.AtEdge d active) (extend : Bool) :
    let c := run g.resolve gestures
    ∃ target, (c.move g.resolve d extend).1 = some target ∧
      (c.move g.resolve d extend).2.active? = some target ∧
      (target = active ↔ ∃ other, LedBack g.resolve d (c.line d.axis active) active other) ∧
      (target = active → ¬g.resolve.SpansApart ∧
        ∀ flags, (c.moves g.resolve d flags).active? = some active) := by
  intro c
  have hg := Grid.settled_resolve g
  have hc := onLine_run hg gestures
  obtain ⟨owner, target, howner, htarget, heq⟩ := hc.exists_target hg hactive d extend
  obtain ⟨i, hi⟩ := hc active hactive d.axis
  have hspans : g.resolve.Spans active
      (d.axis.coord (c.line d.axis active) (d.axis.along active)) :=
    (Grid.spans_coord_iff.1 (Grid.spans_of_owner? hi)).1
  have hstays : target = active ↔
      ∃ other, LedBack g.resolve d (c.line d.axis active) active other := by
    constructor
    · rintro rfl
      refine ⟨owner, ?_, howner, hspans, htarget⟩
      -- From the edge of the active cell itself, no step could lead back into its region.
      rintro rfl
      exact not_spans_nextIndex hinner (Grid.spans_of_owner? htarget)
    · rintro ⟨other, hback⟩
      obtain rfl : other = owner := Option.some.inj (hback.start.symm.trans howner)
      exact Option.some.inj (htarget.symm.trans hback.returns)
  refine ⟨target, by rw [heq], by rw [heq, active?_place], hstays, fun hsame => ?_⟩
  obtain ⟨other, hback⟩ := hstays.1 hsame
  exact ⟨fun hapart => not_ledBack hapart hback, hback.moves hg hc hactive rfl⟩

theorem move_stays_iff_crossed :
    let g := (Grid.blank 4 3).modify ⟨0, 1⟩ fun cell => { cell with rowspan := some 2 }
    let g := g.modify ⟨1, 0⟩ fun cell => { cell with colspan := some 2, rowspan := some 2 }
    let c := run g.resolve [.click ⟨0, 1⟩ false]
    ¬g.resolve.SpansApart ∧ (c.move g.resolve .down false).1 = some ⟨1, 0⟩ ∧
      ¬∃ other, LedBack g.resolve .down (c.line .vertical ⟨0, 1⟩) ⟨0, 1⟩ other := by
  intro g g c
  have hactive : c.active? = some ⟨0, 1⟩ := by decide +kernel
  have hanswer : (c.move g.resolve .down false).1 = some ⟨1, 0⟩ := by decide +kernel
  obtain ⟨target, htarget, -, hstays, -⟩ :=
    move_stays_iff (d := .down) g _ hactive (by decide +kernel) false
  rw [hanswer, Option.some.injEq] at htarget
  subst htarget
  exact ⟨by decide +kernel, hanswer, fun hback => absurd (hstays.2 hback) (by decide)⟩

/-- Below a high cell that a wide one runs into, the second move down changes nothing. -/
theorem move_down_stuck :
    let high : Patch := { content := some (.text "b"), rowspan := some 2 }
    let wide : Patch := { content := some (.text "c"), colspan := some 2, rowspan := some 2 }
    let t : Table :=
      { rowCount := some 4, colCount := some 2,
        rows := [{ cells := [.plain (.text "a"), .styled high] }, { cells := [.styled wide] }] }
    let g := t.grid [] {}
    let c := run g [.click ⟨0, 1⟩ false, .move .down false]
    c.active? = some ⟨1, 0⟩ ∧ ¬g.AtEdge .down ⟨1, 0⟩ ∧
      c.move g .down false = (some ⟨1, 0⟩, c) := by
  decide +kernel

end Cursor

end TableGrid
