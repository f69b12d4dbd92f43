import TableGrid.Grid.Basic
import TableGrid.Options
import TableGrid.Table.Basic

/-! # Resolved styles

The style of a cell, row, column or table is a cascade: attribute sets are laid on top of each
other, each cut down to the properties that its level admits, and the uppermost value of each
property counts.  Rules are resolved against the size of the grid.
-/

namespace TableGrid

/-- The style that keeps an empty cell clickable. -/
def Style.placeholder : Style :=
  (Style.empty.insert .height "2em").insert .width "1.5em"

namespace Table

/-- The attributes of the ranged defaults that apply, in the order of the table. -/
def applying (ranges : List RangedDefault) (applies : Rule → Bool) : List Attributes :=
  (ranges.filter fun d => applies d.rule).map (·.attributes)

/-- Whether a cell shows nothing, as a missing one does. -/
def showsNothing (g : Grid) (p : Coord) : Bool :=
  match g.get? p with
  | some cell => cell.content.isEmpty
  | none => true

/-- The stages of a cell's style, lowest first: its column, the placeholder, the default for
    all cells, the ranged defaults, and the cell's own attributes. -/
def cellStages (t : Table) (g : Grid) (options : Options) (p : Coord) : List Style :=
  (t.columns[p.col]?.map fun c => c.attributes.styleAt .columnCell).toList ++
    (if options.placeholder && showsNothing g p then [.placeholder] else []) ++
    (t.cellDefaults.toList ++
      applying t.cellRanges (·.matchesCell g.height g.width p.row p.col) ++
      ((g.get? p).map (·.attributes)).toList).map (·.styleAt .cell)

/-- The style of a cell. -/
def cellStyle (t : Table) (g : Grid) (options : Options) (p : Coord) : Style :=
  .cascade (t.cellStages g options p)

/-- The stages of a row's style, lowest first: the default for all rows, the ranged defaults,
    and the row's own attributes. -/
def rowStages (t : Table) (g : Grid) (row : Nat) : List Style :=
  (t.rowDefaults.toList ++ applying t.rowRanges (·.matchesIndex g.height row) ++
    (t.rows[row]?.map (·.attributes)).toList).map (·.styleAt .row)

/-- The style of a row. -/
def rowStyle (t : Table) (g : Grid) (row : Nat) : Style := .cascade (t.rowStages g row)

/-- The stages of a column's style, lowest first: the default for all columns, the ranged
    defaults, and the column's own attributes. -/
def colStages (t : Table) (g : Grid) (col : Nat) : List Style :=
  (t.colDefaults.toList ++ applying t.colRanges (·.matchesIndex g.width col) ++
    (t.columns[col]?.map (·.attributes)).toList).map (·.styleAt .column)

/-- The style of a column. -/
def colStyle (t : Table) (g : Grid) (col : Nat) : Style := .cascade (t.colStages g col)

/-- The style of the table itself. -/
def tableStyle (t : Table) : Style := t.attributes.styleAt .table

end Table

end TableGrid
