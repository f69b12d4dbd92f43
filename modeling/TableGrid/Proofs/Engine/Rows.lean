import Mathlib.Data.List.Induction
import TableGrid.Proofs.Engine.Document
import TableGrid.Proofs.Table.Extent

/-!
# Removing rows

A grid of fewer than two rows is left alone, but what a removal leaves need not be one row less:
rows that are not declared are there only for the entries in them or below, and go with the last of
these.  A run of removals leaves a row as long as each of them leaves a declared one or an entry.

## Key results

- `removeRow_cases`: what a removal does to the engine
- `height_removeRow_pos_iff`: when a removal leaves a row
- `height_removeRows_pos_iff`: when all removals of a run do
- `RowsDeclared.height_removeRows_pos`: they do where all rows and entries are declared
-/

namespace TableGrid

namespace Table

variable {t t' : Table} {o : Overlay} {options : Options} {i n : Nat}

theorem countAfterRemove_pos_iff : 0 < countAfterRemove i n ↔ ∃ j < n, j ≠ i := by
  unfold countAfterRemove
  constructor
  · intro hpos
    split at hpos
    · by_cases hi : i = 0
      · exact ⟨1, by omega, by omega⟩
      · exact ⟨0, by omega, by omega⟩
    · exact ⟨0, by omega, by omega⟩
  · rintro ⟨j, hj, hne⟩
    split <;> omega

/-- A grid has rows if the table declares some, or the data block or the overlay has an entry within
    the limits. -/
theorem height_grid_pos_iff :
    0 < (t.grid [o] options).height ↔
      0 < t.declaredRows ∨
        ∃ p, (t.blockOverlay.Mentions p ∨ o.Mentions p) ∧ options.admits p = true := by
  rw [← not_iff_not, Nat.not_lt, grid, Grid.height_resolve, height_merged_le_iff,
    height_merged_nil_le_iff, not_or, Nat.not_lt, not_exists, and_assoc]
  refine and_congr_right' ⟨?_, fun hnone => ⟨fun p hp hadm => ?_, fun p hp hadm => ?_⟩⟩
  · rintro ⟨hblock, hoverlay⟩ p ⟨hp | hp, hadm⟩
    · exact Nat.not_lt_zero _ (hblock p hp hadm)
    · exact Nat.not_lt_zero _ (hoverlay p hp hadm)
  · exact absurd ⟨.inl hp, hadm⟩ (hnone p)
  · exact absurd ⟨.inr hp, hadm⟩ (hnone p)

end Table

namespace Overlay

variable {o : Overlay} {i : Nat} {q : Coord}

/-- Cells that move up keep having an address. -/
theorem mentions_removeRow_iff :
    (o.reshape (.removeRow i)).Mentions q ↔
      ∃ p, o.Mentions p ∧ (Reshape.removeRow i).move? p = some q := by
  refine mentions_reshape_iff fun p q hp hmove => ?_
  obtain ⟨row, hrow, rfl⟩ := Option.map_eq_some_iff.1 hmove
  have hfits := hp.fits
  rw [Reshape.indexAfterRemove?_eq_some_iff] at hrow
  exact ⟨by have := hfits.1; simp only; omega, hfits.2⟩

end Overlay

namespace Engine

variable {e : Engine Table} {i : Nat}

/-- Remove rows one after the other, from an engine over the plain service. -/
def removeRows (e : Engine Table) (indices : List (Option Nat)) : Engine Table :=
  run Document.service e (indices.map fun index? => .changeShape (.removeRow index?))

theorem removeRows_concat (e : Engine Table) (indices : List (Option Nat)) (index? : Option Nat) :
    e.removeRows (indices ++ [index?]) =
      (e.removeRows indices).changeShape Document.service (.removeRow index?) := by
  rw [removeRows, List.map_append, List.map_singleton, run_concat]
  rfl

/-- The row that is removed on request, if one is. -/
def removedRow? (e : Engine Table) (index? : Option Nat) : Option Nat :=
  let i := index?.getD (e.table.extent.1 - 1)
  if 2 ≤ e.grid.height ∧ i < e.table.extent.1 then some i else none

/-- Whether there is a row when one has gone: another one is declared, or an entry of the data block
    or the overlay goes to a place within the limits. -/
def LeavesRow (e : Engine Table) (i : Nat) : Prop :=
  (∃ row < e.table.declaredRows, row ≠ i) ∨
    ∃ p q, (e.table.blockOverlay.Mentions p ∨ e.overlay.Mentions p) ∧
      (Reshape.removeRow i).move? p = some q ∧ e.options.admits q = true

/-- A removal that does not come about leaves table, overlay and grid as they are. -/
theorem removeRow_cases (hstore : e.store = e.table) (index? : Option Nat) :
    let e' := e.changeShape Document.service (.removeRow index?)
    (e.removedRow? index? = none ∧ e'.store = e'.table ∧ e'.table = e.table ∧
        e'.overlay = e.overlay ∧ e'.grid = e.grid) ∨
      ∃ i t', e.removedRow? index? = some i ∧ e.table.reshape (.removeRow i) = .ok t' ∧
        e' = rebuilt { e.awaitingShape with
          store := t', table := t', overlay := e.overlay.reshape (.removeRow i) } := by
  intro e'
  have heq : e' = _ := changeShape_eq Document.service e (.removeRow index?)
  simp only [reshape?] at heq
  simp only [removedRow?]
  generalize index?.getD (e.table.extent.1 - 1) = i at heq ⊢
  by_cases hheight : 2 ≤ e.grid.height
  · rw [if_pos hheight] at heq
    simp only at heq
    rcases reshape_document_cases e (.removeRow i) with ⟨t', hr, hok⟩ | ⟨cause, hr, herror⟩
    · rw [hstore] at hr
      refine .inr ⟨i, t', if_pos ⟨hheight, ?_⟩, hr, heq.trans hok⟩
      exact (Table.exists_reshape_iff e.table (.removeRow i)).1 ⟨t', hr⟩
    · rw [hstore] at hr
      rw [heq, herror]
      refine .inl ⟨if_neg fun h => ?_, hstore, rfl, rfl, rfl⟩
      obtain ⟨t', ht'⟩ := (Table.exists_reshape_iff e.table (.removeRow i)).2 h.2
      rw [hr] at ht'
      cases ht'
  · rw [if_neg hheight] at heq
    rw [heq]
    exact .inl ⟨if_neg fun h => hheight h.1, hstore, rfl, rfl, rfl⟩

/-- When a removal leaves a row. -/
theorem height_removeRow_pos_iff (hstore : e.store = e.table) (hheight : 0 < e.grid.height)
    (index? : Option Nat) :
    0 < (e.changeShape Document.service (.removeRow index?)).grid.height ↔
      ∀ i, e.removedRow? index? = some i → e.LeavesRow i := by
  rcases removeRow_cases hstore index? with ⟨hnone, -, -, -, hgrid⟩ | ⟨i, t', hsome, hr, heq⟩
  · rw [hgrid, hnone]
    exact iff_of_true hheight fun _ h => nomatch h
  · rw [heq, hsome]
    simp only [Option.some.injEq, forall_eq']
    rw [grid_rebuilt, Table.height_grid_pos_iff, Table.declaredRows_removeRow hr,
      Table.countAfterRemove_pos_iff, Table.blockOverlay_reshape hr]
    refine or_congr_right ?_
    -- Whatever is mentioned now has come from somewhere.
    simp only [Overlay.mentions_removeRow_iff]
    constructor
    · rintro ⟨q, ⟨p, hp, hmove⟩ | ⟨p, hp, hmove⟩, hadm⟩
      · exact ⟨p, q, .inl hp, hmove, hadm⟩
      · exact ⟨p, q, .inr hp, hmove, hadm⟩
    · rintro ⟨p, q, hp | hp, hmove, hadm⟩
      · exact ⟨q, .inl ⟨p, hp, hmove⟩, hadm⟩
      · exact ⟨q, .inr ⟨p, hp, hmove⟩, hadm⟩

theorem store_removeRow (hstore : e.store = e.table) (index? : Option Nat) :
    (e.changeShape Document.service (.removeRow index?)).store =
      (e.changeShape Document.service (.removeRow index?)).table := by
  rcases removeRow_cases hstore index? with ⟨-, hsame, -, -, -⟩ | ⟨i, t', -, -, heq⟩
  · exact hsame
  · rw [heq]
    rfl

/-! ## Runs of removals -/

/-- The service and the engine keep the same table all along. -/
theorem store_removeRows (hstore : e.store = e.table) (indices : List (Option Nat)) :
    (e.removeRows indices).store = (e.removeRows indices).table := by
  induction indices using List.reverseRecOn with
  | nil => exact hstore
  | append_singleton indices index? ih =>
    rw [removeRows_concat]
    exact store_removeRow ih index?

/-- However many rows are removed from an engine whose table the plain service keeps, there is a row
    left after each removal if and only if each one that comes about leaves a declared row or an
    entry within the limits. -/
theorem height_removeRows_pos_iff (hstore : e.store = e.table) (hheight : 0 < e.grid.height)
    (indices : List (Option Nat)) :
    (∀ done, done <+: indices → 0 < (e.removeRows done).grid.height) ↔
      ∀ done index? i, done ++ [index?] <+: indices →
        (e.removeRows done).removedRow? index? = some i → (e.removeRows done).LeavesRow i := by
  constructor
  · intro hall done index? i hprefix hremoved
    have hdone := hall done ((List.prefix_append _ _).trans hprefix)
    have hnext := hall _ hprefix
    rw [removeRows_concat] at hnext
    exact (height_removeRow_pos_iff (store_removeRows hstore done) hdone index?).1 hnext i hremoved
  · intro hleaves done
    -- Each removal starts from a grid that has a row.
    induction done using List.reverseRecOn with
    | nil => exact fun _ => hheight
    | append_singleton done index? ih =>
      intro hprefix
      have hdone := ih ((List.prefix_append _ _).trans hprefix)
      rw [removeRows_concat]
      refine (height_removeRow_pos_iff (store_removeRows hstore done) hdone index?).2 fun i hi => ?_
      exact hleaves done index? i hprefix hi

/-- Of three counted rows the first one goes, then the last one, then none. -/
theorem height_removeRows_pos_counted :
    let e := opened (.ofSize 3 1) (.ofSize 3 1) {}
    e.store = e.table ∧ 0 < e.grid.height ∧
      ∀ done, done <+: [some 0, none, none] → 0 < (e.removeRows done).grid.height := by
  intro e
  have hheight : 0 < e.grid.height := by decide +kernel
  refine ⟨rfl, hheight, (height_removeRows_pos_iff rfl hheight _).2 ?_⟩
  intro done index? i hprefix hremoved
  have hcases : done = [] ∧ index? = some 0 ∨ done = [some 0] ∧ index? = none ∨
      done = [some 0, none] ∧ index? = none := by
    obtain ⟨rest, hrest⟩ := hprefix
    match done with
    | [] | [_] | [_, _] => simp_all
    | _ :: _ :: _ :: _ => simp at hrest
  rcases hcases with ⟨rfl, rfl⟩ | ⟨rfl, rfl⟩ | ⟨rfl, rfl⟩
  · have hzero : (e.removeRows []).removedRow? (some 0) = some 0 := by decide +kernel
    obtain rfl := Option.some.inj (hzero.symm.trans hremoved)
    exact .inl ⟨1, by decide +kernel, by decide⟩
  · have hone : (e.removeRows [some 0]).removedRow? none = some 1 := by decide +kernel
    obtain rfl := Option.some.inj (hone.symm.trans hremoved)
    exact .inl ⟨0, by decide +kernel, by decide⟩
  · have hnone : (e.removeRows [some 0, none]).removedRow? none = none := by decide +kernel
    cases hnone.symm.trans hremoved

/-- With the last row goes the only entry, and with that the row above. -/
theorem height_removeRows_emptied :
    let block : DataBlock := { overlay := Overlay.empty.insert "A2" (.plain (.text "x")) }
    let t : Table := { colCount := some 1, block := some block }
    let e := opened t t {}
    e.grid.height = 2 ∧ (e.removeRows [none]).grid.height = 0 := by
  decide +kernel

/-! ## Tables that declare their rows -/

/-- Whether all rows of the grid and all entries of the data block and the overlay are declared. -/
structure RowsDeclared (e : Engine Table) : Prop where
  height : e.grid.height ≤ e.table.declaredRows
  entries : ∀ p, e.table.blockOverlay.Mentions p ∨ e.overlay.Mentions p →
    p.row < e.table.declaredRows

theorem RowsDeclared.removeRow (h : e.RowsDeclared) (hstore : e.store = e.table)
    (index? : Option Nat) :
    (e.changeShape Document.service (.removeRow index?)).RowsDeclared := by
  rcases removeRow_cases hstore index? with
    ⟨-, -, htable, hoverlay, hgrid⟩ | ⟨i, t', -, hr, heq⟩
  · exact ⟨by rw [hgrid, htable]; exact h.height, by rw [htable, hoverlay]; exact h.entries⟩
  · rw [heq]
    -- An entry below the row goes up with the end of the declared rows.
    have hentries : ∀ q, t'.blockOverlay.Mentions q ∨
        (e.overlay.reshape (.removeRow i)).Mentions q → q.row < t'.declaredRows := by
      intro q hq
      rw [Table.blockOverlay_reshape hr, Overlay.mentions_removeRow_iff,
        Overlay.mentions_removeRow_iff, ← exists_or] at hq
      obtain ⟨p, hq⟩ := hq
      rw [← or_and_right] at hq
      obtain ⟨row, hrow, rfl⟩ := Option.map_eq_some_iff.1 hq.2
      have hp := h.entries p hq.1
      rw [Reshape.indexAfterRemove?_eq_some_iff] at hrow
      rw [Table.declaredRows_removeRow hr, Table.countAfterRemove]
      simp only
      split <;> omega
    refine ⟨?_, hentries⟩
    rw [grid_rebuilt, Table.grid, Grid.height_resolve, Table.height_merged_le_iff,
      Table.height_merged_nil_le_iff]
    exact ⟨⟨Nat.le_refl _, fun q hq _ => hentries q (.inl hq)⟩, fun q hq _ => hentries q (.inr hq)⟩

/-- Removing rows never empties a table all of whose rows and entries are declared. -/
theorem RowsDeclared.height_removeRows_pos (h : e.RowsDeclared) (hstore : e.store = e.table)
    (hheight : 0 < e.grid.height) (indices : List (Option Nat)) :
    0 < (e.removeRows indices).grid.height := by
  suffices hrows : 0 < (e.removeRows indices).grid.height ∧ (e.removeRows indices).RowsDeclared from
    hrows.1
  induction indices using List.reverseRecOn with
  | nil => exact ⟨hheight, h⟩
  | append_singleton indices index? ih =>
    obtain ⟨hpos, hdeclared⟩ := ih
    have hsame := store_removeRows hstore indices
    rw [removeRows_concat]
    refine ⟨(height_removeRow_pos_iff hsame hpos index?).2 fun i hi => .inl ?_,
      hdeclared.removeRow hsame index?⟩
    -- A row is removed from two at least, and both of them are declared.
    simp only [removedRow?, Option.ite_none_right_eq_some] at hi
    have hle := hdeclared.height
    by_cases hzero : i = 0
    · exact ⟨1, by omega, by omega⟩
    · exact ⟨0, by omega, by omega⟩

end Engine

end TableGrid
