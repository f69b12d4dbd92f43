import TableGrid.Coord.Address

/-! # What can be wrong with a table

`TableError` lists the causes for which an operation on a table, or the reading of a part
of one, is refused.  `TableError.message` is their wording.
-/

namespace TableGrid

/-- Why an operation on a table is refused. -/
inductive TableError where
  | invalidAddress (fault : AddressFault)
  | unmatchedRange (text : String)
  | unknownProperty (name : String)
  | rowOutOfBounds (row rows : Nat)
  | columnOutOfBounds (col cols : Nat)
  /-- The text of a table does not decode. -/
  | undecodable
deriving DecidableEq, Repr

/-- The wording of an error. -/
def TableError.message : TableError → String
  | .invalidAddress fault => "Invalid cell address: " ++ fault.message
  | .unmatchedRange text => "Unmatched range rule: " ++ text
  | .unknownProperty name => "Unknown style attribute: " ++ name
  | .rowOutOfBounds row rows =>
    "Row index " ++ Text.showNat row ++ " out of bounds (rows: " ++ Text.showNat rows ++ ")"
  | .columnOutOfBounds col cols =>
    "Column index " ++ Text.showNat col ++ " out of bounds (columns: " ++ Text.showNat cols ++ ")"
  | .undecodable => "Invalid table declaration: the text is no table"

end TableGrid
