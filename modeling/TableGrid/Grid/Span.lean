import TableGrid.Grid.Basic

/-! # Resolving spans

`Grid.resolve` decides which cells are rendered and which are covered by another cell's span.
It visits the cells row by row.  A cell that is not covered yet becomes an owner, takes the
next place in its row and covers the other cells of its region.  In each row of the region
it covers cells from left to right and stops at the first one that an earlier owner covers.

What an earlier resolution left on the cells is dropped first.
-/

namespace TableGrid.Grid

/-- Mark up to `count` cells of a row as covered, from `p` to the right, stopping at the edge
    and at a cell that is covered already. -/
def coverRun (owner : Coord) : (count : Nat) → Coord → Grid → Grid
  | 0, _, g => g
  | count + 1, p, g =>
    match g.get? p with
    | none => g
    | some cell =>
      if cell.subsumedBy.isSome then g
      else
        coverRun owner count ⟨p.row, p.col + 1⟩
          (g.modify p fun cell => { cell with subsumedBy := some owner })

/-- Cover row number `i` of an owner's region; the first row starts beside the owner. -/
def coverRow (owner : Coord) (width : Nat) (g : Grid) (i : Nat) : Grid :=
  if i = 0 then coverRun owner (width - 1) ⟨owner.row, owner.col + 1⟩ g
  else coverRun owner width ⟨owner.row + i, owner.col⟩ g

/-- Cover the rows of an owner's region, as far as they lie inside the grid. -/
def coverRegion (owner : Coord) (height width : Nat) (g : Grid) : Grid :=
  (List.range (min height (g.height - owner.row))).foldl (coverRow owner width) g

/-- Visit one cell; the number counts the owners met in this row. -/
def visit (row : Nat) (state : Grid × Nat) (col : Nat) : Grid × Nat :=
  let (g, x) := state
  let p : Coord := ⟨row, col⟩
  match g.get? p with
  | none => (g, x)
  | some cell =>
    if cell.subsumedBy.isSome then (g, x)
    else
      let g := g.modify p fun cell => { cell with render := some ⟨x, row⟩ }
      (coverRegion p cell.height cell.width g, x + 1)

/-- Visit the cells of one row. -/
def visitRow (g : Grid) (row : Nat) : Grid :=
  ((List.range g.width).foldl (visit row) (g, 0)).1

/-- Decide for every cell whether it is rendered or covered. -/
def resolve (g : Grid) : Grid :=
  (List.range g.height).foldl visitRow (g.map Cell.clearMarks)

end TableGrid.Grid
