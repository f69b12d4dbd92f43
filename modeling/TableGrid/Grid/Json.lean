import TableGrid.Grid.Basic

/-! # Grids as JSON -/

namespace TableGrid

/-- The JSON form of a grid: its rows of cells. -/
def Grid.toJson (g : Grid) : Json :=
  .object [("rows", .array
    (g.rows.toList.map fun row => .array (row.toList.map Cell.toJson)))]

end TableGrid
