import TableGrid.Proofs.Engine.Built
import TableGrid.Proofs.Overlay.Contents

/-!
# Contents after a rebuild

A content that is being saved is written into the grid and into the overlay.  When the grid is
built again the overlay brings the content back, but only for a cell within the limits of the
options: an entry beyond them is skipped, also where the table itself reaches that far and the grid
has the cell.

## Key results

- `content_rebuild_iff`: which contents a rebuild keeps
-/

namespace TableGrid

namespace Engine

variable {σ : Type} {e e' : Engine σ} {p : Coord} {c : Content} {t : Ticket}

/-- Only a save that can begin issues a ticket. -/
theorem of_beginSave_eq_ok (h : beginSave p c e = .ok t e') :
    e.canSave p = true ∧ e' = e.begun p c := by
  cases hcan : e.canSave p with
  | true =>
    rw [beginSave_of_canSave c hcan] at h
    cases h
    exact ⟨rfl, rfl⟩
  | false =>
    obtain ⟨error, herror⟩ := beginSave_of_not_canSave c hcan
    rw [herror] at h
    cases h

/-- Within the limits a rebuild shows the content that is being saved. -/
theorem content_rebuilt_begun (hfits : e.options.Fits) (hadm : e.options.admits p = true)
    (c : Content) :
    ∃ cell, (rebuilt (e.begun p c)).grid.get? p = some cell ∧ cell.content = c := by
  have hp := Options.fits_of_admits hfits hadm
  have hmentions := (Overlay.mentions_setContent e.overlay c hp).2 (.inr rfl)
  exact ⟨_, Grid.get?_of_contains (Table.contains_grid_of_mentions hmentions hadm),
    Table.content_of_overlay hadm hp (Overlay.contentAt?_setContent e.overlay p c)⟩

/-- Beyond the limits a rebuild takes it back. -/
theorem grid_rebuilt_begun (hskip : e.options.admits p = false) (c : Content) :
    (rebuilt (e.begun p c)).grid = (rebuilt e).grid := by
  show (e.table.merged [e.overlay.setContent p c] e.options).resolve =
    (e.table.merged [e.overlay] e.options).resolve
  rw [Table.merged_setContent_of_skipped c fun hadm => by simp [hskip] at hadm]

/-- A rebuild keeps the content of a save that has begun if and only if the cell lies within the
    limits, or a rebuild would show the same content without the save. -/
theorem content_rebuild_iff (hfits : e.options.Fits) (h : beginSave p c e = .ok t e') :
    (∃ cell, (after rebuild e').grid.get? p = some cell ∧ cell.content = c) ↔
      e.options.admits p = true ∨
        ∃ cell, (after rebuild e).grid.get? p = some cell ∧ cell.content = c := by
  obtain ⟨-, rfl⟩ := of_beginSave_eq_ok h
  change (∃ cell, (rebuilt (e.begun p c)).grid.get? p = some cell ∧ cell.content = c) ↔
    e.options.admits p = true ∨ ∃ cell, (rebuilt e).grid.get? p = some cell ∧ cell.content = c
  -- Within the limits both sides hold; beyond them the save makes no difference to the grid.
  cases hadm : e.options.admits p with
  | true => exact iff_of_true (content_rebuilt_begun hfits hadm c) (.inl rfl)
  | false => simp [grid_rebuilt_begun hadm c]

/-- Within the limits the content is still there. -/
theorem content_rebuild_within_limits :
    let e : Engine Unit := opened (.ofSize 2 2) () {}
    ∃ t e', beginSave ⟨1, 1⟩ (.text "z") e = .ok t e' ∧
      ∃ cell, (after rebuild e').grid.get? ⟨1, 1⟩ = some cell ∧ cell.content = .text "z" := by
  intro e
  have hbegin := beginSave_of_canSave (e := e) (p := ⟨1, 1⟩) (.text "z") (by decide +kernel)
  exact ⟨_, _, hbegin, (content_rebuild_iff (by decide) hbegin).2 (.inl (by decide))⟩

/-- A table of two rows under options for one row: the second cell is there and a save of it begins,
    but a rebuild shows what it had before. -/
theorem content_rebuild_beyond_limits :
    let table : Table :=
      { rows := [{ cells := [.plain (.text "a")] }, { cells := [.plain (.text "x")] }] }
    let e : Engine Unit := opened table () { maxRows := 1 }
    e.stale = false ∧
      ∃ t e', beginSave ⟨1, 0⟩ (.text "z") e = .ok t e' ∧
        (∃ cell, e'.grid.get? ⟨1, 0⟩ = some cell ∧ cell.content = .text "z") ∧
        ∃ cell, (after rebuild e').grid.get? ⟨1, 0⟩ = some cell ∧ cell.content = .text "x" := by
  intro table e
  refine ⟨rfl, _, _, beginSave_of_canSave _ (by decide +kernel), ?_, ?_⟩
  · exact ⟨_, Grid.get?_of_contains (by decide +kernel), by decide +kernel⟩
  · exact ⟨_, Grid.get?_of_contains (by decide +kernel), by decide +kernel⟩

end Engine

end TableGrid
