import TableGrid.Proofs.Grid.Merge
import TableGrid.Proofs.Table.Holds

/-!
# What a grid shows

With canonical keys, and within the limits of the options, the grid of a table has the size of the
table and shows for each cell what is stored, or else what the overlay on top has for it.  What is
stored is looked up under the address of a cell only, while the grid shows what any key has for it
that names the cell, such as an address with zeros in front of the row number.

## Key results

- `content_merged_nil`: a table without overlays shows what is stored
- `content_grid_nil_iff`: when a table without overlays shows what is stored under other keys
- `content_grid`: an overlay on top comes before what is stored
- `Holds.content_grid`, `Holds.height_grid`, `Holds.width_grid`: an overlay whose contents are
  stored does not change anything
-/

namespace TableGrid

namespace Overlay

/-- The content that a cell gets from keys other than its address: the last one that they have. -/
def aliasContent? (o : Overlay) (p : Coord) : Option Content :=
  Patch.last? ((o.erase p.address).patchesAt p) Patch.content

theorem Canonical.aliasContent?_eq {o : Overlay} (h : o.Canonical) (p : Coord) :
    o.aliasContent? p = none := by
  rw [aliasContent?, h.patchesAt_erase_address]
  rfl

end Overlay

namespace Table

variable {t : Table} {o : Overlay} {options : Options} {p : Coord}

/-- Whether the size of a table lies within the limits of the options. -/
def InLimits (t : Table) (options : Options) : Prop :=
  t.extent.1 ≤ options.maxRows ∧ t.extent.2 ≤ options.maxCols

instance (t : Table) (options : Options) : Decidable (t.InLimits options) :=
  inferInstanceAs (Decidable (_ ∧ _))

theorem InLimits.admits (h : t.InLimits options) (hin : t.Contains p) :
    options.admits p = true := by
  obtain ⟨hrows, hcols⟩ := h
  obtain ⟨hrow, hcol⟩ := hin
  simp only [Options.admits, Bool.and_eq_true, decide_eq_true_eq]
  omega

/-! ## Contents -/

/-- An entry that carries no content leaves the one below. -/
theorem content_foldl_apply (cell : Cell) (written? : Option Entry) :
    ((written?.toList.map Entry.toPatch).foldl Cell.apply cell).content =
      (written?.bind Entry.content?).getD cell.content := by
  cases written? with
  | none => rfl
  | some entry => exact Cell.content_apply cell entry

/-- A table without overlays shows what its data block has for a cell, under its address or else
    under an alias, or else what its literal rows have. -/
theorem content_merged_nil_eq (hadm : t.blockOverlay.Mentions p → options.admits p = true)
    (hfits : p.Fits) :
    ((t.merged [] options).cellAt p).content = (t.blockOverlay.contentAt? p).getD
      ((t.blockOverlay.aliasContent? p).getD (t.literalContent p)) := by
  have hpatches : (if options.admits p then t.blockOverlay.patchesAt p else []) =
      t.blockOverlay.patchesAt p := by
    split
    · rfl
    · rename_i hskip
      exact (Overlay.patchesAt_eq_nil fun h => hskip (hadm h)).symm
  -- The literal entry is written first, then the aliases, and the entry of the address last.
  rw [merged_nil, Grid.cellAt_placeAll, Grid.cellAt_placeAll, patches_admitted, hpatches,
    Overlay.patchesAt_eq _ hfits, List.foldl_append, content_foldl_apply,
    Cell.content_foldl_apply, patches_literalPlacements, content_foldl_apply, Grid.cellAt_blank]
  rfl

/-- With canonical keys, a table without overlays shows what is stored. -/
theorem content_merged_nil (hblock : t.blockOverlay.Canonical) (hadm : options.admits p = true)
    (hfits : p.Fits) : ((t.merged [] options).cellAt p).content = t.content p := by
  rw [content_merged_nil_eq (fun _ => hadm) hfits, hblock.aliasContent?_eq, Option.getD_none,
    content_eq]

/-- An overlay on top comes before what is stored. -/
theorem content_grid (hblock : t.blockOverlay.Canonical) (ho : o.Canonical)
    (hadm : options.admits p = true) (hfits : p.Fits) :
    ((t.grid [o] options).cellAt p).content = (o.contentAt? p).getD (t.content p) := by
  rw [content_cellAt_grid, cellAt_merged, if_pos hadm, ho.patchesAt_eq hfits,
    content_foldl_apply, content_merged_nil hblock hadm hfits]
  rfl

/-- An overlay whose contents are stored shows what is stored. -/
theorem Holds.content_grid (h : t.Holds o) (hadm : options.admits p = true) (hfits : p.Fits) :
    ((t.grid [o] options).cellAt p).content = t.content p := by
  rw [Table.content_grid h.block h.canonical hadm hfits]
  cases hc : o.contentAt? p with
  | none => rfl
  | some c => exact (h.content p c hfits hc).symm

/-! ## Size -/

/-- An overlay whose contents are stored does not add rows. -/
theorem Holds.height_grid (h : t.Holds o) (hlimits : t.InLimits options) :
    (t.grid [o] options).height = t.extent.1 := by
  rw [grid, Grid.height_resolve]
  apply Nat.le_antisymm
  -- All that is written lies inside the table.
  · refine height_merged_le_iff.2 ⟨height_merged_nil_le_iff.2 ⟨?_, ?_⟩, ?_⟩
    · rw [extent_eq]
      exact Nat.le_max_right _ _
    · exact fun p hp _ => (Stored.contains (.inr hp)).1
    · exact fun p hp _ => (h.stored p hp).contains.1
  -- The data block lies within the limits, so none of it is skipped.
  · obtain ⟨hbelow, -⟩ := height_merged_le_iff.1 (Nat.le_refl (t.merged [o] options).height)
    obtain ⟨hdeclared, hblock⟩ := height_merged_nil_le_iff.1 hbelow
    rw [extent_eq, Nat.max_le, Overlay.extent_fst_le_iff]
    exact ⟨fun p hp => hblock p hp (hlimits.admits (Stored.contains (.inr hp))), hdeclared⟩

/-- An overlay whose contents are stored does not add columns. -/
theorem Holds.width_grid (h : t.Holds o) (hlimits : t.InLimits options) :
    (t.grid [o] options).width = t.extent.2 := by
  rw [grid, Grid.width_resolve]
  apply Nat.le_antisymm
  · refine width_merged_le_iff.2 ⟨width_merged_nil_le_iff.2 ⟨?_, ?_⟩, ?_⟩
    · rw [extent_eq]
      exact Nat.le_max_right _ _
    · exact fun p hp _ => (Stored.contains (.inr hp)).2
    · exact fun p hp _ => (h.stored p hp).contains.2
  · obtain ⟨hbelow, -⟩ := width_merged_le_iff.1 (Nat.le_refl (t.merged [o] options).width)
    obtain ⟨hdeclared, hblock⟩ := width_merged_nil_le_iff.1 hbelow
    rw [extent_eq, Nat.max_le, Overlay.extent_snd_le_iff]
    exact ⟨fun p hp => hblock p hp (hlimits.admits (Stored.contains (.inr hp))), hdeclared⟩

/-! ## Aliases -/

/-- Within the limits, a table without overlays has as many rows as it stores. -/
theorem height_grid_nil (hblock : ∀ p, t.blockOverlay.Mentions p → options.admits p = true) :
    (t.grid [] options).height = t.extent.1 := by
  rw [grid, Grid.height_resolve]
  refine eq_of_forall_ge_iff fun n => ?_
  rw [height_merged_nil_le_iff, extent_eq, Nat.max_le, Overlay.extent_fst_le_iff, and_comm]
  exact and_congr_left' ⟨fun h p hp => h p hp (hblock p hp), fun h p hp _ => h p hp⟩

/-- Within the limits, a table without overlays has as many columns as it stores. -/
theorem width_grid_nil (hblock : ∀ p, t.blockOverlay.Mentions p → options.admits p = true) :
    (t.grid [] options).width = t.extent.2 := by
  rw [grid, Grid.width_resolve]
  refine eq_of_forall_ge_iff fun n => ?_
  rw [width_merged_nil_le_iff, extent_eq, Nat.max_le, Overlay.extent_snd_le_iff, and_comm]
  exact and_congr_left' ⟨fun h p hp => h p hp (hblock p hp), fun h p hp _ => h p hp⟩

/-- Where the data block lies within the limits, the grid of a table has the size of the table.  A
    cell shows what is stored for it if and only if nothing else comes from an alias of its address
    while the entry of the address itself has no content. -/
theorem content_grid_nil_iff (hblock : ∀ p, t.blockOverlay.Mentions p → options.admits p = true) :
    (t.grid [] options).height = t.extent.1 ∧ (t.grid [] options).width = t.extent.2 ∧
      ∀ p, (t.grid [] options).contains p = true → p.Fits →
        ∃ cell, (t.grid [] options).get? p = some cell ∧
          (cell.content = t.content p ↔ (t.blockOverlay.contentAt? p = none →
            ∀ c, t.blockOverlay.aliasContent? p = some c → c = t.content p)) := by
  refine ⟨height_grid_nil hblock, width_grid_nil hblock, fun p hin hfits => ?_⟩
  refine ⟨_, Grid.get?_of_contains hin, ?_⟩
  rw [content_cellAt_grid, content_merged_nil_eq (hblock p) hfits, content_eq]
  -- The entry of the address comes first in both; without it the alias decides.
  cases t.blockOverlay.contentAt? p with
  | some c => simp
  | none => cases t.blockOverlay.aliasContent? p <;> simp

/-- An alias does not matter where the entry of the address has a content. -/
theorem content_grid_nil_overridden :
    let o := (Overlay.empty.insert "A01" (.plain (.text "x"))).insert "A1" (.plain (.text "y"))
    let t : Table := { block := some { overlay := o } }
    ∃ cell, (t.grid [] {}).get? ⟨0, 0⟩ = some cell ∧ cell.content = t.content ⟨0, 0⟩ := by
  intro o t
  have hblock : ∀ p, t.blockOverlay.Mentions p → Options.admits {} p = true := by
    intro p hp
    obtain ⟨patch, hmem⟩ := Overlay.mentions_iff.1 hp
    have hall : ∀ write ∈ o.placements, Options.admits {} write.1 = true := by decide +kernel
    exact hall _ hmem
  obtain ⟨cell, hcell, hiff⟩ :=
    (content_grid_nil_iff hblock).2.2 ⟨0, 0⟩ (by decide +kernel) ⟨by decide, by decide⟩
  have hcontent : t.blockOverlay.contentAt? ⟨0, 0⟩ ≠ none := by decide +kernel
  exact ⟨cell, hcell, hiff.2 fun hnone => absurd hnone hcontent⟩

/-- A content under an alias alone is shown, but it is not what is stored for the cell. -/
theorem content_grid_nil_alias :
    let o := Overlay.empty.insert "A01" (.plain (.text "x"))
    let t : Table := { block := some { overlay := o } }
    ((t.grid [] {}).get? ⟨0, 0⟩).map (·.content) = some (.text "x") ∧
      t.content ⟨0, 0⟩ = .empty := by
  decide +kernel

end Table

end TableGrid
