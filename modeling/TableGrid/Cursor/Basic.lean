import TableGrid.Cursor.Direction
import TableGrid.Grid.Basic

/-! # Selecting and moving

A `Cursor` holds the selection - the active cell and the anchor, which span a rectangle - and
an axis lock.  The active cell is always an owner.  A move steps from the edge of the active
cell to the next row or column, wraps at the border of the grid and ends at the owner of the
cell it meets.  The lock remembers the column of vertical moves, or the row of horizontal
ones, so that moves along one axis stay in line when they pass through wide or high cells.
-/

namespace TableGrid

/-- The active cell and the opposite corner of the selected rectangle. -/
structure Selection where
  active : Coord
  anchor : Coord
deriving DecidableEq, Repr

namespace Selection

/-- The selection of one cell. -/
def single (p : Coord) : Selection := ⟨p, p⟩

/-- The corner with the smallest indices. -/
def topLeft (s : Selection) : Coord :=
  ⟨min s.active.row s.anchor.row, min s.active.col s.anchor.col⟩

/-- The corner with the largest indices. -/
def bottomRight (s : Selection) : Coord :=
  ⟨max s.active.row s.anchor.row, max s.active.col s.anchor.col⟩

/-- Whether a cell lies in the rectangle. -/
def contains (s : Selection) (p : Coord) : Bool :=
  s.topLeft.row ≤ p.row && p.row ≤ s.bottomRight.row &&
    s.topLeft.col ≤ p.col && p.col ≤ s.bottomRight.col

/-- The indices from `first` to `last`. -/
def indices (first last : Nat) : List Nat := (List.range (last + 1 - first)).map (first + ·)

/-- The cells of the rectangle, row by row. -/
def cells (s : Selection) : List Coord :=
  (indices s.topLeft.row s.bottomRight.row).flatMap fun row =>
    (indices s.topLeft.col s.bottomRight.col).map fun col => ⟨row, col⟩

end Selection

/-- The coordinate that moves along an axis keep: a column for vertical moves, a row for
    horizontal ones. -/
structure AxisLock where
  axis : Axis
  coord : Nat
deriving DecidableEq, Repr

/-- The selection and the axis lock. -/
structure Cursor where
  selection : Option Selection := none
  lock : Option AxisLock := none
deriving DecidableEq, Repr

namespace Cursor

/-- The cursor with nothing selected. -/
def cleared : Cursor := {}

/-- The active cell. -/
def active? (c : Cursor) : Option Coord := c.selection.map (·.active)

/-- Make a cell active.  Extending keeps the anchor, otherwise the cell alone is selected. -/
def place (c : Cursor) (owner : Coord) (extend : Bool) : Cursor :=
  match c.selection with
  | some s =>
    if extend then { c with selection := some { s with active := owner } }
    else { c with selection := some (.single owner) }
  | none => { c with selection := some (.single owner) }

/-- Select the owner of a coordinate and drop the lock; `none` outside the grid. -/
def click? (c : Cursor) (g : Grid) (p : Coord) (extend : Bool) : Option (Coord × Cursor) :=
  (g.owner? p).map fun owner => (owner, { c with lock := none }.place owner extend)

/-- The previous index, wrapping from the first to the last. -/
def before (i count : Nat) : Nat := if i = 0 then count - 1 else i - 1

/-- An index, wrapping from behind the last to the first. -/
def wrapped (i count : Nat) : Nat := if i < count then i else 0

/-- The cell that a move starts from: the active one, brought into line with a lock on the
    same axis and into the grid. -/
def source (c : Cursor) (g : Grid) (active : Coord) (axis : Axis) : Coord :=
  let p : Coord := match c.lock with
    | some ⟨.vertical, col⟩ => if axis = .vertical then ⟨active.row, col⟩ else active
    | some ⟨.horizontal, row⟩ => if axis = .horizontal then ⟨row, active.col⟩ else active
    | none => active
  ⟨min p.row (g.height - 1), min p.col (g.width - 1)⟩

/-- The cell next to an owner in a direction, in line with the source. -/
def neighbour (g : Grid) (direction : Direction) (source owner : Coord) (cell : Cell) : Coord :=
  match direction with
  | .up => ⟨before owner.row g.height, source.col⟩
  | .down => ⟨wrapped (owner.row + cell.height) g.height, source.col⟩
  | .left => ⟨source.row, before owner.col g.width⟩
  | .right => ⟨source.row, wrapped (owner.col + cell.width) g.width⟩

/-- The lock that a move sets: the neighbour's coordinate across the axis. -/
def lockFor (direction : Direction) (neighbour : Coord) : AxisLock :=
  match direction.axis with
  | .vertical => ⟨.vertical, neighbour.col⟩
  | .horizontal => ⟨.horizontal, neighbour.row⟩

/-- Move the active cell one step.  The first part is the new active cell, or `none` when
    nothing is active or the grid is empty. -/
def move (c : Cursor) (g : Grid) (direction : Direction) (extend : Bool) :
    Option Coord × Cursor :=
  match c.active? with
  | none => (none, c)
  | some active =>
    if g.isEmpty then (none, c)
    else
      let source := c.source g active direction.axis
      match g.owner? source with
      | none => (none, c)
      | some owner =>
        match g.get? owner with
        | none => (none, c)
        | some cell =>
          let next := neighbour g direction source owner cell
          let c := { c with lock := some (lockFor direction next) }
          match g.owner? next with
          | none => (none, c)
          | some target => (some target, c.place target extend)

/-- Bring the selection onto the owners of another grid.  A selection that has a corner outside
    is dropped, and the lock with it. -/
def revalidate (c : Cursor) (g : Grid) : Cursor :=
  let selection := c.selection.bind fun s => do
    return ⟨← g.owner? s.active, ← g.owner? s.anchor⟩
  { selection, lock := if selection.isNone then none else c.lock }

end Cursor

end TableGrid
