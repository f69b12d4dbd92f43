import TableGrid.Overlay
import TableGrid.Range.Default

/-! # Tables

A `Table` is a sparse description: counts of rows and columns, literal rows of cells, columns,
defaults for rows, columns and cells, and a data block, which is an overlay stored with the
table.  Whatever else is written on a table is an attribute of it.

* `Table.extent`       the number of rows and columns
* `Table.content`      what is stored for a cell: the data block before the literal rows
* `Table.setContent`   store a content
* `Table.reshape`      insert or remove a row or column
-/

namespace TableGrid

/-- A literal row. -/
structure Row where
  cells : List Entry := []
  id : Option String := none
  attributes : Attributes := .empty
deriving DecidableEq

instance : Inhabited Row := ⟨{}⟩

/-- A column. -/
structure Column where
  id : Option String := none
  span : Option UInt32 := none
  attributes : Attributes := .empty
deriving DecidableEq

instance : Inhabited Column := ⟨{}⟩

/-- How the addresses of a data block are meant. -/
inductive BlockKind where
  | relative
  | abstract
deriving DecidableEq, Repr, Inhabited

/-- An overlay stored with a table. -/
structure DataBlock where
  kind : BlockKind := .relative
  overlay : Overlay := .empty
deriving DecidableEq

/-- A table. -/
structure Table where
  rowCount : Option Nat := none
  colCount : Option Nat := none
  rows : List Row := []
  columns : List Column := []
  /-- Defaults for all rows. -/
  rowDefaults : Option Attributes := none
  /-- Defaults for all columns. -/
  colDefaults : Option Attributes := none
  /-- Defaults for all cells. -/
  cellDefaults : Option Attributes := none
  rowRanges : List RangedDefault := []
  colRanges : List RangedDefault := []
  cellRanges : List RangedDefault := []
  block : Option DataBlock := none
  /-- Attributes of the table itself. -/
  attributes : Attributes := .empty
deriving DecidableEq

namespace Table

/-- A table of empty cells. -/
def ofSize (rows cols : Nat) : Table := { rowCount := some rows, colCount := some cols }

/-! ### Size -/

/-- The rows that are counted or literal. -/
def declaredRows (t : Table) : Nat := max (t.rowCount.getD 0) t.rows.length

/-- The columns that are counted or reached by a literal row. -/
def declaredCols (t : Table) : Nat :=
  t.rows.foldl (fun cols row => max cols row.cells.length) (t.colCount.getD 0)

/-- The overlay of the data block, if there is one. -/
def overlay? (t : Table) : Option Overlay := t.block.map (·.overlay)

/-- The number of rows and columns, the data block included. -/
def extent (t : Table) : Nat × Nat :=
  let (rows, cols) := (t.overlay?.map Overlay.extent).getD (0, 0)
  (max rows t.declaredRows, max cols t.declaredCols)

/-! ### Contents -/

/-- The literal entry of a cell. -/
def literal? (t : Table) (p : Coord) : Option Entry :=
  t.rows[p.row]?.bind fun row => row.cells[p.col]?

/-- What is stored for a cell: the content in the data block, or else in the literal rows. -/
def content (t : Table) (p : Coord) : Content :=
  match (t.overlay?.bind (·.getAt? p)).bind Entry.content? with
  | some c => c
  | none => ((t.literal? p).bind Entry.content?).getD .empty

/-- Extend a list to at least `length` items. -/
def padTo {α : Type} (length : Nat) (item : α) (items : List α) : List α :=
  items ++ List.replicate (length - items.length) item

/-- Store a content in the literal rows, which are extended as needed. -/
def setLiteral (t : Table) (p : Coord) (c : Content) : Table :=
  { t with
    rows := (padTo (p.row + 1) {} t.rows).modify p.row fun row =>
      { row with
        cells := (padTo (p.col + 1) (.plain .empty) row.cells).modify p.col (.setContent c) } }

/-- Store a content: in the data block if it has an entry for the cell, or else in the literal
    rows. -/
def setContent (t : Table) (p : Coord) (c : Content) : Table :=
  match t.block with
  | some block =>
    if (block.overlay.getAt? p).isSome then
      { t with block := some { block with overlay := block.overlay.setContent p c } }
    else t.setLiteral p c
  | none => t.setLiteral p c

/-! ### Shape -/

/-- Insert an item where the index is at most the length of the list. -/
def insertAt {α : Type} (i : Nat) (item : α) (items : List α) : List α := items.insertIdx i item

/-- Insert an item into a list that has any, where the index is at most its length. -/
def insertIfAny {α : Type} (i : Nat) (item : α) (items : List α) : List α :=
  if items.isEmpty then items else insertAt i item items

/-- A count after an insertion at an index.  Counts are words of 64 bits, so the last one is
    followed by zero. -/
def countAfterInsert (i count : Nat) : Nat := if i ≤ count then Text.nextWord count else count

/-- A count after the removal of an index. -/
def countAfterRemove (i count : Nat) : Nat := if i < count then count - 1 else count

/-- The data block of a reshaped table. -/
def reshapeBlock (r : Reshape) (block : Option DataBlock) : Option DataBlock :=
  block.map fun b => { b with overlay := b.overlay.reshape r }

/-- Insert or remove a row or column.  An insertion may append; a removal has to name a row or
    column that exists. -/
def reshape (t : Table) (r : Reshape) : Except TableError Table :=
  let (rows, cols) := t.extent
  match r with
  | .insertRow i =>
    if rows < i then .error (.rowOutOfBounds i rows)
    else .ok { t with
      rows := insertAt i {} t.rows
      rowCount := t.rowCount.map (countAfterInsert i)
      block := reshapeBlock r t.block }
  | .removeRow i =>
    if rows ≤ i then .error (.rowOutOfBounds i rows)
    else .ok { t with
      rows := t.rows.eraseIdx i
      rowCount := t.rowCount.map (countAfterRemove i)
      block := reshapeBlock r t.block }
  | .insertColumn i =>
    if cols < i then .error (.columnOutOfBounds i cols)
    else .ok { t with
      rows := t.rows.map fun row => { row with cells := insertIfAny i (.plain .empty) row.cells }
      columns := insertIfAny i {} t.columns
      colCount := t.colCount.map (countAfterInsert i)
      block := reshapeBlock r t.block }
  | .removeColumn i =>
    if cols ≤ i then .error (.columnOutOfBounds i cols)
    else .ok { t with
      rows := t.rows.map fun row => { row with cells := row.cells.eraseIdx i }
      columns := t.columns.eraseIdx i
      colCount := t.colCount.map (countAfterRemove i)
      block := reshapeBlock r t.block }

end Table

end TableGrid
