import TableGrid.Proofs.Cursor.Cycle

/-!
# Locked lines

The first move along an axis locks the line of the active cell, and later moves along the axis keep
to it.  Each of them ends at an owner that has a cell of the line, also where this owner starts in
another column or row.  Spans may intersect, as an owner of a resolved grid always has a cell to
step from.

## Key results

- `exists_target`: where a move leads
- `follows_move`: what the first move locks
- `Follows.move`, `Follows.walk`: moves along the axis keep the line
- `walk_locks_line`: both together
-/

namespace TableGrid

namespace Cursor

variable {c : Cursor} {g : Grid} {active owner : Coord} {axis : Axis} {d : Direction}
  {n i : Nat}

theorem line_of_lock (h : c.lock = some ⟨axis, n⟩) (active : Coord) : c.line axis active = n := by
  rw [line, h]
  exact if_pos rfl

/-- Without a lock on the axis, the line is that of the active cell. -/
theorem line_of_unlocked (h : ∀ lock, c.lock = some lock → lock.axis ≠ axis) (active : Coord) :
    c.line axis active = axis.across active := by
  obtain hline | ⟨lock, hlocked, haxis, -⟩ := c.line_cases axis active
  · exact hline
  · exact absurd haxis (h lock hlocked)

/-- A line has a cell beside the start of each owner that has one of its cells. -/
theorem contains_coord_along (hg : g.Settled) (howner : g.owner? (axis.coord n i) = some owner) :
    g.contains (axis.coord n (axis.along owner)) = true := by
  have hline := (Grid.contains_coord_iff.1 (Grid.contains_of_owner? howner)).2
  have hin := Grid.contains_of_mem_owners (hg _ _ howner)
  rw [← axis.coord_across_along owner, Grid.contains_coord_iff] at hin
  exact Grid.contains_coord_iff.2 ⟨hin.1, hline⟩

/-- A move along a line of the grid leads from one owner to the owner of the next cell, and locks
    the line. -/
theorem exists_target (hg : g.Settled) (hactive : c.active? = some active)
    (hline : g.contains (d.axis.coord (c.line d.axis active) i) = true) (extend : Bool) :
    ∃ owner target, g.owner? (c.source g active d.axis) = some owner ∧
      g.owner? (d.axis.coord (c.line d.axis active) (nextIndex g d owner)) = some target ∧
      c.move g d extend = (some target,
        { c with lock := some ⟨d.axis, c.line d.axis active⟩ }.place target extend) := by
  obtain ⟨hi, hbreadth⟩ := Grid.contains_coord_iff.1 hline
  -- As the line is in the grid, bringing the start into the grid moves it along the line only.
  have hacross : d.axis.across (c.source g active d.axis) = c.line d.axis active := by
    rw [source_eq_min, Axis.across_coord, Nat.min_eq_left (by omega)]
  have hsource : g.contains (c.source g active d.axis) = true := by
    rw [source_eq_min, Grid.contains_coord_iff]
    omega
  obtain ⟨owner, howner⟩ := Grid.owner?_isSome hsource
  obtain ⟨target, htarget, heq⟩ :=
    move_eq_of_owner? hactive howner (Grid.contains_of_mem_owners (hg _ _ howner)) extend
  rw [hacross] at htarget heq
  exact ⟨owner, target, howner, htarget, heq⟩

/-- Whether a line is locked and the active cell is the owner of one of its cells. -/
structure Follows (c : Cursor) (g : Grid) (axis : Axis) (n : Nat) : Prop where
  lock : c.lock = some ⟨axis, n⟩
  stands : ∃ active i, c.active? = some active ∧ g.owner? (axis.coord n i) = some active

/-- A move locks the line that it follows. -/
theorem follows_move (hg : g.Settled) (hactive : c.active? = some active)
    (hline : g.contains (d.axis.coord (c.line d.axis active) i) = true) (extend : Bool) :
    (c.move g d extend).2.Follows g d.axis (c.line d.axis active) ∧
      (c.move g d extend).1 = (c.move g d extend).2.active? := by
  obtain ⟨owner, target, -, htarget, heq⟩ := exists_target hg hactive hline extend
  rw [heq]
  exact ⟨⟨lock_place, target, _, active?_place, htarget⟩, active?_place.symm⟩

/-- A move along the axis of the lock keeps the line. -/
theorem Follows.move (h : c.Follows g d.axis n) (hg : g.Settled) (extend : Bool) :
    (c.move g d extend).2.Follows g d.axis n ∧
      (c.move g d extend).1 = (c.move g d extend).2.active? := by
  obtain ⟨active, i, hactive, howner⟩ := h.stands
  have hline := line_of_lock h.lock active
  have hmove := follows_move hg hactive (hline.symm ▸ contains_coord_along hg howner) extend
  rwa [hline] at hmove

/-- The cursor after moves, each in a direction and with or without extending the selection. -/
def walk (c : Cursor) (g : Grid) (steps : List (Direction × Bool)) : Cursor :=
  steps.foldl (fun c step => (c.move g step.1 step.2).2) c

theorem Follows.walk (h : c.Follows g axis n) (hg : g.Settled) {steps : List (Direction × Bool)}
    (hsteps : ∀ step ∈ steps, step.1.axis = axis) : (c.walk g steps).Follows g axis n := by
  induction steps generalizing c with
  | nil => exact h
  | cons step steps ih =>
    obtain ⟨hstep, hrest⟩ := List.forall_mem_cons.1 hsteps
    subst hstep
    exact ih (h.move hg step.2).1 hrest

/-- Moves along one axis, back and forth, keep to the line of the cell that was active before them
    if no lock on the axis was left from earlier moves.  After each of them that line is locked,
    and the active cell, which the move answers with, is the owner of one of its cells. -/
theorem walk_locks_line (g : Grid) (hactive : c.active? = some active)
    (hline : g.resolve.contains (axis.coord (axis.across active) i) = true)
    (hunlocked : ∀ lock, c.lock = some lock → lock.axis ≠ axis)
    {steps : List (Direction × Bool)} (hsteps : ∀ step ∈ steps, step.1.axis = axis)
    (hd : d.axis = axis) (extend : Bool) :
    let answer := (c.walk g.resolve steps).move g.resolve d extend
    answer.2.lock = some ⟨axis, axis.across active⟩ ∧ ∃ target j,
      answer.1 = some target ∧ answer.2.active? = some target ∧
      g.resolve.owner? (axis.coord (axis.across active) j) = some target := by
  intro answer
  have hg := Grid.settled_resolve g
  have hown := line_of_unlocked hunlocked active
  have hfollows : answer.2.Follows g.resolve axis (axis.across active) ∧
      answer.1 = answer.2.active? := by
    cases steps with
    | nil =>
      subst hd
      have hfirst := follows_move hg hactive (hown.symm ▸ hline) extend
      rwa [hown] at hfirst
    | cons step steps =>
      -- The first move locks the line, the others and the last one keep it.
      obtain ⟨hstep, hrest⟩ := List.forall_mem_cons.1 hsteps
      subst hstep
      have hfirst := (follows_move hg hactive (hown.symm ▸ hline) step.2).1
      rw [hown] at hfirst
      have hwalk := hfirst.walk hg hrest
      rw [← hd] at hwalk ⊢
      exact hwalk.move hg extend
  obtain ⟨⟨hlock, target, j, htarget, howner⟩, hanswer⟩ := hfollows
  exact ⟨hlock, target, j, hanswer.trans htarget, htarget, howner⟩

theorem walk_locks_line_crossed :
    let g := (Grid.blank 4 3).modify ⟨0, 1⟩ fun cell => { cell with rowspan := some 2 }
    let g := g.modify ⟨1, 0⟩ fun cell => { cell with colspan := some 2, rowspan := some 3 }
    let c : Cursor := { selection := some (.single ⟨0, 1⟩), lock := some ⟨.horizontal, 0⟩ }
    let answer := (c.walk g.resolve [(.down, false), (.up, true)]).move g.resolve .down false
    answer.2.lock = some ⟨.vertical, 1⟩ ∧ ∃ target j,
      answer.1 = some target ∧ answer.2.active? = some target ∧
      g.resolve.owner? ⟨j, 1⟩ = some target := by
  intro g g c
  have hactive : c.active? = some ⟨0, 1⟩ := rfl
  have hunlocked : ∀ lock, c.lock = some lock → lock.axis ≠ .vertical := by simp [c]
  exact walk_locks_line (i := 0) g hactive (by decide +kernel) hunlocked (by decide) rfl false

end Cursor

end TableGrid
