import Std.Data.ExtTreeMap
import TableGrid.Text.Integer

/-! # Cell coordinates

A `Coord` is the position of a cell, row and column counted from zero.  Coordinates are
ordered row by row, which makes them usable as keys of a map.
-/

namespace TableGrid

/-- The position of a cell, counted from zero. -/
structure Coord where
  row : Nat
  col : Nat
deriving DecidableEq, Repr, Inhabited

namespace Coord

/-- The coordinate further down and to the right, if its indices still fit into 64 bits. -/
def offset? (p : Coord) (rows cols : Nat) : Option Coord :=
  if p.row + rows ≤ Text.maxWord ∧ p.col + cols ≤ Text.maxWord then
    some ⟨p.row + rows, p.col + cols⟩
  else none

/-- Coordinates are compared by row, then by column. -/
instance : Ord Coord where
  compare p q := (compare p.row q.row).then (compare p.col q.col)

theorem compare_def (p q : Coord) :
    compare p q = (compare p.row q.row).then (compare p.col q.col) := rfl

instance : Std.TransOrd Coord where
  eq_swap {p q} := by
    rw [compare_def, compare_def, Ordering.swap_then,
      ← Std.OrientedCmp.eq_swap, ← Std.OrientedCmp.eq_swap]
  isLE_trans {p q r} := by
    simp only [compare_def, Ordering.isLE_then_iff_or, Nat.compare_eq_lt, Nat.compare_eq_eq,
      Nat.isLE_compare]
    omega

instance : Std.LawfulEqOrd Coord where
  eq_of_compare {p q} h := by
    rw [compare_def, Ordering.then_eq_eq, Nat.compare_eq_eq, Nat.compare_eq_eq] at h
    cases p; cases q; simp_all

end Coord

end TableGrid
