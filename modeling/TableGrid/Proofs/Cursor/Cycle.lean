import Mathlib.Logic.Function.Iterate
import TableGrid.Proofs.Cursor.Selection
import TableGrid.Proofs.Grid.Line

/-!
# Moves run in circles

Moves along an axis follow one line, the locked one.  Whatever clicks and moves led to a cursor, its
line goes through the active cell (`Cursor.Aligned`).  So where no spans intersect, moves in one
direction visit the owners of the line one after the other, and the first one again after the last.

## Key results

- `aligned_run`: clicks and moves keep the line of the cursor on the active cell
- `move_eq_of_owner?`, `Aligned.move_eq`: what a move does
- `StandsAt.move`: a move goes one owner on along the line
- `move_run`: moves visit every owner of the line once before they return
-/

namespace TableGrid

namespace Direction

/-- The direction that leads back. -/
def opposite : Direction → Direction
  | up => down
  | down => up
  | left => right
  | right => left

/-- One step in a circle of a given number of places: on for down and right, back for up and
    left. -/
def turn : Direction → Nat → Nat → Nat
  | down, count, i | right, count, i => (i + 1) % count
  | up, count, i | left, count, i => (i + count - 1) % count

@[simp] theorem axis_opposite (d : Direction) : d.opposite.axis = d.axis := by cases d <;> rfl

variable {d : Direction} {count n i j : Nat}

/-- Where a number of steps leads, for at most one round. -/
def turns : Direction → Nat → Nat → Nat → Nat
  | down, count, n, i | right, count, n, i => if i + n < count then i + n else i + n - count
  | up, count, n, i | left, count, n, i => if n ≤ i then i - n else i + count - n

theorem turn_turns (hi : i < count) (hn : n < count) :
    d.turn count (d.turns count n i) = d.turns count (n + 1) i := by
  have hforward : ∀ j, j < count → (j + 1) % count = if j + 1 < count then j + 1 else 0 := by
    intro j hj
    split
    · exact Nat.mod_eq_of_lt ‹_›
    · rw [show j + 1 = count by omega, Nat.mod_self]
  have hback : ∀ j, j < count → (j + count - 1) % count = if j = 0 then count - 1 else j - 1 := by
    intro j hj
    split
    · rw [show j + count - 1 = count - 1 by omega, Nat.mod_eq_of_lt (by omega)]
    · rw [show j + count - 1 = j - 1 + count by omega, Nat.add_mod_right,
        Nat.mod_eq_of_lt (by omega)]
  cases d with
  | down | right =>
    simp only [turn, turns]
    rw [hforward _ (by split <;> omega)]
    split <;> split <;> split <;> omega
  | up | left =>
    simp only [turn, turns]
    rw [hback _ (by split <;> omega)]
    split <;> split <;> split <;> omega

theorem iterate_turn (hi : i < count) (hn : n ≤ count) :
    (d.turn count)^[n] i = d.turns count n i := by
  induction n with
  | zero =>
    rw [Function.iterate_zero_apply]
    cases d <;> simp only [turns] <;> split <;> omega
  | succ n ih => rw [Function.iterate_succ_apply', ih (by omega), turn_turns hi (by omega)]

/-- A round leads back. -/
theorem iterate_turn_self (hi : i < count) : (d.turn count)^[count] i = i := by
  rw [iterate_turn hi (Nat.le_refl _)]
  cases d <;> simp only [turns] <;> split <;> omega

/-- In a round, every place comes once. -/
theorem existsUnique_iterate_turn (hi : i < count) (hj : j < count) :
    ∃! n, n < count ∧ (d.turn count)^[n] i = j := by
  have hunique : ∃! n, n < count ∧ d.turns count n i = j := by
    cases d with
    | down | right =>
      refine ⟨if i ≤ j then j - i else j + count - i, ?_, ?_⟩
      · simp only [turns]
        split <;> split <;> omega
      · rintro n ⟨hn, heq⟩
        simp only [turns] at heq
        split at heq <;> split <;> omega
    | up | left =>
      refine ⟨if j ≤ i then i - j else i + count - j, ?_, ?_⟩
      · simp only [turns]
        split <;> split <;> omega
      · rintro n ⟨hn, heq⟩
        simp only [turns] at heq
        split at heq <;> split <;> omega
  obtain ⟨n, ⟨hn, heq⟩, hother⟩ := hunique
  refine ⟨n, ⟨hn, by rw [iterate_turn hi (by omega), heq]⟩, ?_⟩
  rintro m ⟨hm, hmeq⟩
  rw [iterate_turn hi (by omega)] at hmeq
  exact hother m ⟨hm, hmeq⟩

theorem turn_opposite_turn (hi : i < count) : d.opposite.turn count (d.turn count i) = i := by
  have hback : (i + count - 1 + 1) % count = i := by
    rw [show i + count - 1 + 1 = i + count by omega, Nat.add_mod_right, Nat.mod_eq_of_lt hi]
  cases d with
  | up | left =>
    simp only [turn, opposite]
    rw [Nat.mod_add_mod, hback]
  | down | right =>
    simp only [turn, opposite]
    rw [Nat.add_sub_assoc (by omega), Nat.mod_add_mod,
      show i + 1 + (count - 1) = i + count by omega, Nat.add_mod_right, Nat.mod_eq_of_lt hi]

end Direction

namespace Cursor

variable {c : Cursor} {g : Grid} {active owner p : Coord} {axis : Axis} {d : Direction}
  {extend : Bool} {n i : Nat}

/-! ## Lines -/

/-- The line that moves along an axis follow: the locked one, or the one that the active cell
    starts in. -/
def line (c : Cursor) (axis : Axis) (active : Coord) : Nat :=
  match c.lock with
  | some lock => if lock.axis = axis then lock.coord else axis.across active
  | none => axis.across active

/-- The line is that of the active cell or that of a lock on the axis. -/
theorem line_cases (c : Cursor) (axis : Axis) (active : Coord) :
    c.line axis active = axis.across active ∨
      ∃ lock, c.lock = some lock ∧ lock.axis = axis ∧ c.line axis active = lock.coord := by
  unfold line
  split
  · rename_i lock hlock
    by_cases haxis : lock.axis = axis
    · exact .inr ⟨lock, hlock, haxis, if_pos haxis⟩
    · exact .inl (if_neg haxis)
  · exact .inl rfl

/-- Whether the line that the cursor would follow goes through the active cell, which is an
    owner. -/
def Aligned (c : Cursor) (g : Grid) : Prop :=
  ∀ active, c.active? = some active → ∀ axis : Axis,
    g.owner? (axis.coord (c.line axis active) (axis.along active)) = some active

@[simp] theorem line_place : (c.place owner extend).line = c.line := by
  funext axis active
  rw [line, line, lock_place]

/-- A cell that the cursor is placed on is in line, as far as it is on the line of a lock. -/
theorem aligned_place (hself : g.owner? owner = some owner)
    (hlock : ∀ lock, c.lock = some lock →
      g.owner? (lock.axis.coord lock.coord (lock.axis.along owner)) = some owner) :
    (c.place owner extend).Aligned g := by
  intro active hactive axis
  rw [active?_place, Option.some.injEq] at hactive
  subst hactive
  rw [line_place]
  obtain hline | ⟨lock, hlocked, rfl, hline⟩ := c.line_cases axis owner
  · rwa [hline, Axis.coord_across_along]
  · rw [hline]
    exact hlock lock hlocked

/-- The active cell is an owner. -/
theorem Aligned.owner?_active (h : c.Aligned g) (hactive : c.active? = some active) :
    g.owner? active = some active := by
  -- A lock is on one axis only, and along the other one the line is that of the cell itself.
  have hline : ∃ axis : Axis, c.line axis active = axis.across active := by
    unfold line
    cases c.lock with
    | none => exact ⟨.vertical, rfl⟩
    | some lock =>
      obtain ⟨lockAxis, coord⟩ := lock
      cases lockAxis
      · exact ⟨.horizontal, rfl⟩
      · exact ⟨.vertical, rfl⟩
  obtain ⟨axis, hline⟩ := hline
  have howner := h active hactive axis
  rwa [hline, Axis.coord_across_along] at howner

/-! ## Clicks -/

theorem aligned_click (h : g.Tiled) {answer : Coord × Cursor}
    (hclick : c.click? g p extend = some answer) : answer.2.Aligned g := by
  obtain ⟨owner, howner, rfl⟩ := Option.map_eq_some_iff.1 hclick
  exact aligned_place (h.owner?_self howner) fun lock hlock => nomatch hlock

/-! ## Moves -/

/-- The index along a line that a move from an owner leads to. -/
def nextIndex (g : Grid) (d : Direction) (owner : Coord) : Nat :=
  match d with
  | .up | .left => before (d.axis.along owner) (g.length d.axis)
  | .down | .right =>
    wrapped (d.axis.along owner + (g.cellAt owner).extent d.axis) (g.length d.axis)

theorem nextIndex_lt (hpos : 0 < g.length d.axis) (hin : d.axis.along owner < g.length d.axis) :
    nextIndex g d owner < g.length d.axis := by
  cases d <;> simp only [nextIndex, before, wrapped] <;> split <;> omega

theorem neighbour_eq (source : Coord) :
    neighbour g d source owner (g.cellAt owner) =
      d.axis.coord (d.axis.across source) (nextIndex g d owner) := by
  cases d <;> rfl

theorem lockFor_coord : lockFor d (d.axis.coord n i) = ⟨d.axis, n⟩ := by
  cases d <;> rfl

/-- A move starts from where the line of the cursor meets the start of the active cell, brought into
    the grid. -/
theorem source_eq_min : c.source g active axis =
    axis.coord (min (c.line axis active) (g.breadth axis - 1))
      (min (axis.along active) (g.length axis - 1)) := by
  unfold source line
  cases c.lock with
  | none => cases axis <;> rfl
  | some lock =>
    obtain ⟨lockAxis, coord⟩ := lock
    cases lockAxis <;> cases axis <;> rfl

theorem source_eq (hin : g.contains (axis.coord (c.line axis active) (axis.along active)) = true) :
    c.source g active axis = axis.coord (c.line axis active) (axis.along active) := by
  obtain ⟨hindex, hline⟩ := Grid.contains_coord_iff.1 hin
  rw [source_eq_min, Nat.min_eq_left (by omega), Nat.min_eq_left (by omega)]

theorem isEmpty_eq_false (h : g.contains p = true) : g.isEmpty = false := by
  rw [Grid.contains_iff] at h
  rw [Grid.isEmpty, Bool.or_eq_false_iff, beq_eq_false_iff_ne, beq_eq_false_iff_ne]
  omega

/-- A move goes from the owner of the cell that it starts from to the owner of the next cell on the
    line, and locks the line. -/
theorem move_eq_of_owner? (hactive : c.active? = some active)
    (howner : g.owner? (c.source g active d.axis) = some owner)
    (hin : g.contains owner = true) (extend : Bool) :
    let line := d.axis.across (c.source g active d.axis)
    ∃ target, g.owner? (d.axis.coord line (nextIndex g d owner)) = some target ∧
      c.move g d extend =
        (some target, { c with lock := some ⟨d.axis, line⟩ }.place target extend) := by
  intro line
  have hsource := Grid.contains_of_owner? howner
  have hindex : d.axis.along owner < g.length d.axis :=
    (Grid.contains_coord_iff.1 (by rwa [Axis.coord_across_along])).1
  have hline : line < g.breadth d.axis :=
    (Grid.contains_coord_iff.1 (by rwa [Axis.coord_across_along])).2
  have hnext : g.contains (d.axis.coord line (nextIndex g d owner)) = true :=
    Grid.contains_coord_iff.2 ⟨nextIndex_lt (by omega) hindex, hline⟩
  obtain ⟨target, htarget⟩ := Grid.owner?_isSome hnext
  refine ⟨target, htarget, ?_⟩
  unfold move
  simp only [hactive, isEmpty_eq_false hsource, howner, Grid.get?_of_contains hin, neighbour_eq,
    lockFor_coord, line, htarget]
  rfl

/-- A move leads to the owner of the cell next to the active one on the line, and locks the line. -/
theorem Aligned.move_eq (h : c.Aligned g) (hactive : c.active? = some active) (d : Direction)
    (extend : Bool) :
    ∃ target, g.owner? (d.axis.coord (c.line d.axis active) (nextIndex g d active)) = some target ∧
      c.move g d extend = (some target,
        { c with lock := some ⟨d.axis, c.line d.axis active⟩ }.place target extend) := by
  have howner := h active hactive d.axis
  have hsource := source_eq (Grid.contains_of_owner? howner)
  have hmove := move_eq_of_owner? hactive (by rwa [hsource])
    (Grid.contains_of_owner? (h.owner?_active hactive)) extend
  rwa [hsource, Axis.across_coord] at hmove

/-! ## Runs -/

/-- A click on a coordinate or a move in a direction, with or without extending the selection. -/
inductive Gesture where
  | click (p : Coord) (extend : Bool)
  | move (d : Direction) (extend : Bool)

/-- The cursor after a gesture.  A click outside of the grid leaves it alone. -/
def act (g : Grid) (c : Cursor) : Gesture → Cursor
  | .click p extend => ((c.click? g p extend).map (·.2)).getD c
  | .move d extend => (c.move g d extend).2

/-- The cursor that clicks and moves on a grid lead to. -/
def run (g : Grid) (gestures : List Gesture) : Cursor := gestures.foldl (act g) cleared

theorem Aligned.move (h : c.Aligned g) (htiled : g.Tiled) (d : Direction) (extend : Bool) :
    (c.move g d extend).2.Aligned g := by
  cases hactive : c.active? with
  | none =>
    unfold Cursor.move
    simpa only [hactive] using h
  | some active =>
    obtain ⟨target, htarget, heq⟩ := h.move_eq hactive d extend
    rw [heq]
    refine aligned_place (htiled.owner?_self htarget) fun lock hlock => ?_
    obtain rfl := Option.some.inj hlock
    exact htiled.owner?_coord htarget

/-- What holds when nothing is selected, after any click, and after a move if it did before, holds
    after clicks and moves. -/
theorem run_induction {P : Cursor → Prop} (hcleared : P cleared)
    (hclick : ∀ (c : Cursor) (p : Coord) extend answer,
      c.click? g p extend = some answer → P answer.2)
    (hmove : ∀ (c : Cursor) d extend, P c → P (c.move g d extend).2) (gestures : List Gesture) :
    P (run g gestures) := by
  have hact : ∀ (c : Cursor) gesture, P c → P (c.act g gesture) := by
    intro c gesture hc
    cases gesture with
    | click p extend =>
      rw [act]
      cases hanswer : c.click? g p extend with
      | none => exact hc
      | some answer => exact hclick c p extend answer hanswer
    | move d extend => exact hmove c d extend hc
  have hfoldl : ∀ c, P c → P (gestures.foldl (act g) c) := by
    induction gestures with
    | nil => exact fun c hc => hc
    | cons gesture gestures ih => exact fun c hc => ih _ (hact c gesture hc)
  exact hfoldl cleared hcleared

/-- Clicks and moves keep the line of the cursor on the active cell. -/
theorem aligned_run (htiled : g.Tiled) (gestures : List Gesture) :
    (run g gestures).Aligned g := by
  refine run_induction (P := (Aligned · g)) ?_ ?_ ?_ gestures
  · intro active hactive
    cases hactive
  · exact fun _ _ _ _ hclick => aligned_click htiled hclick
  · exact fun _ d extend haligned => haligned.move htiled d extend

/-! ## Circles -/

/-- Whether the active cell is the owner of a given number along a line that the cursor follows. -/
structure StandsAt (c : Cursor) (g : Grid) (axis : Axis) (n i : Nat) : Prop where
  aligned : c.Aligned g
  stands : ∃ active, c.active? = some active ∧ c.line axis active = n ∧
    (g.lineOwners axis n)[i]? = some active

/-- A cursor in line stands somewhere along its line. -/
theorem Aligned.exists_standsAt (h : c.Aligned g) (hactive : c.active? = some active)
    (axis : Axis) : ∃ i, c.StandsAt g axis (c.line axis active) i := by
  have howner := h active hactive axis
  have hline := (Grid.contains_coord_iff.1 (Grid.contains_of_owner? howner)).2
  rw [← Grid.getElem?_lineCells hline] at howner
  obtain ⟨i, hi⟩ := List.mem_iff_getElem?.1 (List.mem_eraseDups.2 (List.mem_of_getElem? howner))
  exact ⟨i, h, active, hactive, rfl, hi⟩

/-- The cell next to an owner on a line belongs to the next owner of the line. -/
theorem getElem?_lineOwners_turn (htiled : g.Tiled) (hline : n < g.breadth d.axis)
    (hi : (g.lineOwners d.axis n)[i]? = some owner) :
    (g.lineOwners d.axis n)[d.turn (g.lineOwners d.axis n).length i]? =
      g.owner? (d.axis.coord n (nextIndex g d owner)) := by
  have hruns := htiled.inRuns_lineCells hline
  rw [← Grid.getElem?_lineCells hline]
  cases d with
  | down | right =>
    refine (hruns.getElem?_eraseDups_next hi).trans ?_
    rw [Grid.length_lineCells hline]
    rfl
  | up | left =>
    refine (hruns.getElem?_eraseDups_previous hi).trans ?_
    rw [Grid.length_lineCells hline]
    rfl

/-- A move goes one owner on along the line, and locks the line. -/
theorem StandsAt.move (h : c.StandsAt g d.axis n i) (htiled : g.Tiled) (extend : Bool) :
    (c.move g d extend).2.StandsAt g d.axis n (d.turn (g.lineOwners d.axis n).length i) ∧
      (c.move g d extend).1 = (c.move g d extend).2.active? ∧
      (c.move g d extend).2.lock = some ⟨d.axis, n⟩ := by
  obtain ⟨haligned, active, hactive, rfl, hi⟩ := h
  have howner := haligned active hactive d.axis
  have hline := (Grid.contains_coord_iff.1 (Grid.contains_of_owner? howner)).2
  have hmove := haligned.move htiled d extend
  obtain ⟨target, htarget, heq⟩ := haligned.move_eq hactive d extend
  rw [heq] at hmove ⊢
  refine ⟨⟨hmove, target, active?_place, ?_, ?_⟩, active?_place.symm, lock_place⟩
  · rw [line_place]
    exact if_pos rfl
  · rw [getElem?_lineOwners_turn htiled hline hi, htarget]

/-- The cursor after moves in one direction, each with or without extending the selection. -/
def moves (c : Cursor) (g : Grid) (d : Direction) (flags : List Bool) : Cursor :=
  flags.foldl (fun c extend => (c.move g d extend).2) c

theorem StandsAt.moves (h : c.StandsAt g d.axis n i) (htiled : g.Tiled) (flags : List Bool) :
    (c.moves g d flags).StandsAt g d.axis n
      ((d.turn (g.lineOwners d.axis n).length)^[flags.length] i) := by
  induction flags generalizing c i with
  | nil => exact h
  | cons extend flags ih => exact ih (h.move htiled extend).1

theorem StandsAt.active? (h : c.StandsAt g axis n i) :
    c.active? = (g.lineOwners axis n)[i]? := by
  obtain ⟨active, hactive, -, hi⟩ := h.stands
  rw [hactive, hi]

theorem StandsAt.lt_length (h : c.StandsAt g axis n i) : i < (g.lineOwners axis n).length := by
  obtain ⟨active, -, -, hi⟩ := h.stands
  exact (List.getElem?_eq_some_iff.1 hi).1

/-- Moves in one direction visit every owner of the line once before they return. -/
theorem StandsAt.visits (h : c.StandsAt g d.axis n i) (htiled : g.Tiled) {flags : List Bool}
    (hflags : flags.length = (g.lineOwners d.axis n).length) :
    (∀ owner ∈ g.lineOwners d.axis n, ∃! m, m < (g.lineOwners d.axis n).length ∧
      (c.moves g d (flags.take m)).active? = some owner) ∧
    (c.moves g d flags).active? = c.active? := by
  have hi := h.lt_length
  refine ⟨?_, ?_⟩
  · intro owner howner
    obtain ⟨j, hj⟩ := List.mem_iff_getElem?.1 howner
    have hlt := (List.getElem?_eq_some_iff.1 hj).1
    -- As owners do not repeat along the line, an owner is visited when its number is.
    have hvisited : ∀ m, m < (g.lineOwners d.axis n).length →
        ((c.moves g d (flags.take m)).active? = some owner ↔
          (d.turn (g.lineOwners d.axis n).length)^[m] i = j) := by
      intro m hm
      have hstands := h.moves htiled (flags.take m)
      rw [List.length_take, Nat.min_eq_left (by omega)] at hstands
      rw [hstands.active?, ← hj, List.getElem?_inj hstands.lt_length (List.nodup_eraseDups _)]
    obtain ⟨m, ⟨hm, heq⟩, hother⟩ := Direction.existsUnique_iterate_turn (d := d) hi hlt
    refine ⟨m, ⟨hm, (hvisited m hm).2 heq⟩, ?_⟩
    rintro m' ⟨hm', heq'⟩
    exact hother m' ⟨hm', (hvisited m' hm').1 heq'⟩
  · rw [(h.moves htiled flags).active?, hflags, Direction.iterate_turn_self hi, h.active?]

/-- Where no spans intersect, moves run in circles, whatever clicks and moves led to the cursor.
    The active cell is one of the owners of the line, a move goes to the next or the previous one
    and locks the line, moves in one direction visit every owner once before they return, and a
    move back undoes a move. -/
theorem move_run (g : Grid) (hapart : g.resolve.SpansApart) (gestures : List Gesture)
    {active : Coord} (hactive : (run g.resolve gestures).active? = some active) (axis : Axis) :
    let c := run g.resolve gestures
    let owners := g.resolve.lineOwners axis (c.line axis active)
    owners.Nodup ∧ ∃ i, owners[i]? = some active ∧
      (∀ d extend, d.axis = axis →
        (c.move g.resolve d extend).1 = owners[d.turn owners.length i]? ∧
        (c.move g.resolve d extend).2.active? = owners[d.turn owners.length i]? ∧
        (c.move g.resolve d extend).2.lock = some ⟨axis, c.line axis active⟩) ∧
      (∀ d flags, d.axis = axis → flags.length = owners.length →
        (∀ owner ∈ owners, ∃! n, n < owners.length ∧
          (c.moves g.resolve d (flags.take n)).active? = some owner) ∧
        (c.moves g.resolve d flags).active? = some active) ∧
      ∀ d extend extend', d.axis = axis →
        ((c.move g.resolve d extend).2.move g.resolve d.opposite extend').2.active? =
          some active := by
  have htiled := Grid.tiled_resolve hapart
  obtain ⟨i, hi⟩ := (aligned_run htiled gestures).exists_standsAt hactive axis
  have hindex := hi.active?
  rw [hactive] at hindex
  refine ⟨List.nodup_eraseDups _, i, hindex.symm, ?_, ?_, ?_⟩
  · rintro d extend rfl
    obtain ⟨hstands, hanswer, hlock⟩ := hi.move htiled extend
    exact ⟨hanswer.trans hstands.active?, hstands.active?, hlock⟩
  · rintro d flags rfl hflags
    have hvisits := hi.visits htiled hflags
    rwa [hactive] at hvisits
  · rintro d extend extend' rfl
    have hthere := (hi.move htiled extend).1
    have hback := (StandsAt.move (d := d.opposite) (by
      rw [Direction.axis_opposite]
      exact hthere) htiled extend').1
    rw [Direction.axis_opposite, Direction.turn_opposite_turn hi.lt_length] at hback
    rw [hback.active?, hindex]

theorem move_run_merged :
    let g := (Grid.blank 3 3).modify ⟨0, 0⟩ fun cell => { cell with rowspan := some 2 }
    let g := g.modify ⟨1, 1⟩ fun cell => { cell with colspan := some 2, rowspan := some 2 }
    let c := run g.resolve [.click ⟨0, 1⟩ false, .move .down false, .move .left true]
    let owners := g.resolve.lineOwners .horizontal (c.line .horizontal ⟨0, 0⟩)
    c.active? = some ⟨0, 0⟩ ∧ owners = [⟨0, 0⟩, ⟨1, 1⟩] ∧
      ∀ flags, flags.length = owners.length →
        (∀ owner ∈ owners, ∃! n, n < owners.length ∧
          (c.moves g.resolve .right (flags.take n)).active? = some owner) ∧
        (c.moves g.resolve .right flags).active? = some ⟨0, 0⟩ := by
  intro g g c owners
  have hactive : c.active? = some ⟨0, 0⟩ := by decide +kernel
  obtain ⟨-, i, -, -, hvisits, -⟩ := move_run _ (by decide +kernel) _ hactive .horizontal
  exact ⟨hactive, by decide +kernel, fun flags hflags => hvisits .right flags rfl hflags⟩

end Cursor

end TableGrid
