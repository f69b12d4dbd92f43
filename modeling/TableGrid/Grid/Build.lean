import TableGrid.Grid.Span
import TableGrid.Options
import TableGrid.Table.Basic

/-! # Building the grid of a table

The grid of a table starts with empty cells, as many as the table declares.  Patches are
written onto them one after another: the literal cells row by row, then the data block, then
each further overlay, each in the order of its keys.  An entry beyond the limits of the
options is skipped, any other one extends the grid as far as it needs.  At the end spans are
resolved.

`Table.placements` lists these patches, so the grid before resolving is one fold over it.
-/

namespace TableGrid

/-- Whether an overlay may write to a coordinate. -/
def Options.admits (options : Options) (p : Coord) : Bool :=
  p.row < options.maxRows && p.col < options.maxCols

namespace Table

/-- The patches of the literal cells, row by row. -/
def literalPlacements (t : Table) : List (Coord × Patch) :=
  t.rows.zipIdx.flatMap fun (row, y) =>
    row.cells.zipIdx.map fun (entry, x) => (⟨y, x⟩, entry.toPatch)

/-- All patches of a table and the overlays on top of it, in the order of writing. -/
def placements (t : Table) (overlays : List Overlay) (options : Options) :
    List (Coord × Patch) :=
  t.literalPlacements ++
    (t.overlay?.toList ++ overlays).flatMap fun o =>
      o.placements.filter fun (p, _) => options.admits p

/-- The grid of a table before spans are resolved. -/
def merged (t : Table) (overlays : List Overlay) (options : Options) : Grid :=
  (t.placements overlays options).foldl (fun g (p, patch) => g.place p patch)
    (.blank t.declaredRows t.declaredCols)

/-- The grid of a table with overlays on top of it. -/
def grid (t : Table) (overlays : List Overlay) (options : Options) : Grid :=
  (t.merged overlays options).resolve

end Table

end TableGrid
