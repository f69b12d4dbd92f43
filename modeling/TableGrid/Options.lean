/-! # Options of a grid -/

namespace TableGrid

/-- How far overlays may extend a grid, and how empty cells are shown. -/
structure Options where
  /-- Entries from this row on are skipped. -/
  maxRows : Nat := 1048576
  /-- Entries from this column on are skipped. -/
  maxCols : Nat := 16384
  /-- Whether empty cells get a height and a width, so that they can be clicked. -/
  placeholder : Bool := true
deriving DecidableEq, Repr

end TableGrid
