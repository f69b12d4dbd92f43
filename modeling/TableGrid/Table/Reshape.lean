import TableGrid.Coord.Basic

/-! # Changes of shape

A `Reshape` inserts or removes one row or column.  `Reshape.move?` says where it takes a
cell: cells behind the change move by one, and the cells of a removed row or column go.
-/

namespace TableGrid

/-- A row or column to insert or remove. -/
inductive Reshape where
  | insertRow (index : Nat)
  | removeRow (index : Nat)
  | insertColumn (index : Nat)
  | removeColumn (index : Nat)
deriving DecidableEq, Repr

namespace Reshape

/-- What is done, for messages. -/
def description : Reshape → String
  | .insertRow i => "Adding row " ++ Text.showNat i
  | .removeRow i => "Removing row " ++ Text.showNat i
  | .insertColumn i => "Adding column " ++ Text.showNat i
  | .removeColumn i => "Removing column " ++ Text.showNat i

/-- Where an index goes when one is inserted in front of it or at it. -/
def indexAfterInsert (added i : Nat) : Nat := if added ≤ i then i + 1 else i

/-- Where an index goes when one is removed. -/
def indexAfterRemove? (removed i : Nat) : Option Nat :=
  if i < removed then some i else if i = removed then none else some (i - 1)

/-- Where a cell goes, or `none` for a cell that is removed. -/
def move? : Reshape → Coord → Option Coord
  | .insertRow i, p => some ⟨indexAfterInsert i p.row, p.col⟩
  | .removeRow i, p => (indexAfterRemove? i p.row).map fun row => ⟨row, p.col⟩
  | .insertColumn i, p => some ⟨p.row, indexAfterInsert i p.col⟩
  | .removeColumn i, p => (indexAfterRemove? i p.col).map fun col => ⟨p.row, col⟩

end Reshape

end TableGrid
