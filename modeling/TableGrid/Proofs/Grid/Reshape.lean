import TableGrid.Proofs.Engine.Built
import TableGrid.Proofs.Grid.Merge
import TableGrid.Proofs.Overlay.Reshape
import TableGrid.Proofs.Table.Reshape

/-!
# Grids of reshaped tables

A change of shape may be made to a table and the overlays on top of it, or to the grid that is built
from them: the cells are the same.  The cells of an inserted row or column come from nowhere and are
empty.

## Key results

- `MovesWithin.writesAt_reshape`: what an overlay writes on a cell moves with the cell
- `clearMarks_cellAt_grid_reshape`: the cells of the new grid
- `rowAlone_reshape`, `columnAlone_reshape`: what rows and columns carry themselves
- `grid_reshape`: a change of shape commutes with building
-/

namespace TableGrid

/-! ## What an overlay writes on a cell -/

namespace Overlay

variable {o : Overlay} {options : Options} {r : Reshape} {p q : Coord} {key : String}

/-- Whether no two keys name the same cell, and all cells named are within the options both before
    and after a change of shape. -/
structure MovesWithin (o : Overlay) (r : Reshape) (options : Options) : Prop where
  once : o.NamesOnce
  before : ∀ p, o.Mentions p → options.admits p = true
  after : ∀ p q, o.Mentions p → r.move? p = some q → options.admits q = true

theorem movesWithin_iff :
    o.MovesWithin r options ↔ o.NamesOnce ∧
      ∀ write ∈ o.placements, options.admits write.1 = true ∧
        ∀ q ∈ r.move? write.1, options.admits q = true := by
  constructor
  · intro h
    refine ⟨h.once, fun write hwrite => ?_⟩
    have hmentions := mentions_iff.2 ⟨write.2, hwrite⟩
    exact ⟨h.before _ hmentions, fun q hq => h.after _ q hmentions hq⟩
  · intro ⟨honce, hall⟩
    refine ⟨honce, fun p hp => ?_, fun p q hp hq => ?_⟩
    · obtain ⟨patch, hmem⟩ := mentions_iff.1 hp
      exact (hall _ hmem).1
    · obtain ⟨patch, hmem⟩ := mentions_iff.1 hp
      exact (hall _ hmem).2 q hq

instance : Decidable (o.MovesWithin r options) := decidable_of_iff _ movesWithin_iff.symm

theorem target?_eq_some_iff :
    target? options key = some p ↔ Coord.ofAddress? key = .ok p ∧ options.admits p = true := by
  unfold target?
  rw [Option.filter_eq_some_iff]
  cases Coord.ofAddress? key with
  | error fault => simp [Except.toOption]
  | ok q => simp [Except.toOption]

theorem writesAt_eq_nil (h : ¬o.Mentions p) : o.writesAt options p = [] := by
  rw [writesAt, List.map_eq_nil_iff, List.filter_eq_nil_iff]
  rintro ⟨key, entry⟩ hmem htarget
  rw [decide_eq_true_eq, target?_eq_some_iff] at htarget
  exact h ⟨key, entry, mem_toList.1 hmem, htarget.1⟩

/-- The only entry that names a cell is what is written there. -/
theorem NamesOnce.writesAt_eq {entry : Entry} (h : o.NamesOnce) (hget : o.get? key = some entry)
    (haddr : Coord.ofAddress? key = .ok p) (hadm : options.admits p = true) :
    o.writesAt options p = [entry.toPatch] := by
  have hnodup : (o.toList.filter fun e => target? options e.1 = some p).Nodup :=
    o.nodup_toList.filter _
  -- The entry is in the list of those that name the cell, and no other one is.
  have hmem : (key, entry) ∈ o.toList.filter fun e => target? options e.1 = some p :=
    List.mem_filter.2 ⟨mem_toList.2 hget,
      decide_eq_true (target?_eq_some_iff.2 ⟨haddr, hadm⟩)⟩
  have hall : ∀ e ∈ o.toList.filter fun e => target? options e.1 = some p, e = (key, entry) := by
    rintro ⟨key', entry'⟩ hmem'
    obtain ⟨hlist, htarget⟩ := List.mem_filter.1 hmem'
    rw [decide_eq_true_eq, target?_eq_some_iff] at htarget
    rw [mem_toList] at hlist
    obtain rfl := h key' key p (by rw [hlist]; rfl) (by rw [hget]; rfl) htarget.1 haddr
    rw [hget] at hlist
    rw [Option.some.inj hlist]
  have hone : (o.toList.filter fun e => target? options e.1 = some p) = [(key, entry)] := by
    by_contra hne
    rcases (hnodup.ne_singleton_iff _).1 hne with hnil | ⟨e, he, hother⟩
    · rw [hnil] at hmem
      cases hmem
    · exact hother (hall e he)
  rw [writesAt, hone]
  rfl

/-- What is written on a cell moves with the cell. -/
theorem MovesWithin.writesAt_reshape (h : o.MovesWithin r options) (hfits : options.Fits)
    (hmove : r.move? p = some q) : (o.reshape r).writesAt options q = o.writesAt options p := by
  by_cases hmentions : o.Mentions p
  · have hp := h.before p hmentions
    have hq' := h.after p q hmentions hmove
    have hq := Options.fits_of_admits hfits hq'
    obtain ⟨key, entry, hget, haddr⟩ := hmentions
    -- The entry goes to the address of the new place, and no other one can go there.
    have hsome := isSome_get?_reshape (by rw [hget]; rfl) (moved?_of_move? haddr hmove)
    obtain ⟨entry', hget'⟩ := Option.isSome_iff_exists.1 hsome
    obtain ⟨key', hkey', hmoved'⟩ := exists_of_get?_reshape hget'
    obtain ⟨-, p', haddr', hmove'⟩ := eq_of_moved? hmoved' (Coord.ofAddress?_address hq)
    obtain rfl := Reshape.move?_inj hmove' hmove
    obtain rfl := h.once key' key p' (by rw [hkey']; rfl) (by rw [hget]; rfl) haddr' haddr
    rw [hget, Option.some.injEq] at hkey'
    subst hkey'
    rw [h.once.writesAt_eq hget haddr hp, (canonical_reshape o r).namesOnce.writesAt_eq hget'
      (Coord.ofAddress?_address hq) hq']
  · rw [writesAt_eq_nil hmentions, writesAt_eq_nil]
    intro hnew
    obtain ⟨p', hp', hmove'⟩ := mentions_reshape hnew
    obtain rfl := Reshape.move?_inj hmove' hmove
    exact hmentions hp'

/-- Nothing is written on the cells of an inserted row or column. -/
theorem writesAt_reshape_of_origin?_eq_none (h : r.origin? q = none) :
    (o.reshape r).writesAt options q = [] := by
  refine writesAt_eq_nil fun hmentions => ?_
  obtain ⟨p, -, hmove⟩ := mentions_reshape hmentions
  rw [Reshape.origin?_eq_some_iff.2 hmove] at h
  cases h

end Overlay

namespace Table

variable {t t' : Table} {overlays : List Overlay} {options : Options} {r : Reshape} {p q : Coord}

/-! ## Rows and columns themselves -/

/-- What a row carries itself, without its cells. -/
def rowAlone (t : Table) (row : Nat) : Row := { t.rows[row]?.getD {} with cells := [] }

/-- What a column carries. -/
def columnAlone (t : Table) (col : Nat) : Column := t.columns[col]?.getD {}

theorem rowAlone_reshape (h : t.reshape r = .ok t') (row : Nat) :
    t'.rowAlone row = ((r.rowOrigin? row).map t.rowAlone).getD {} := by
  have hrows := (of_reshape_eq_ok h).1
  cases r with
  | insertRow i =>
    rw [rowAlone, hrows, reshapeRows, insertAt, Reshape.getD_insertIdx, Reshape.rowOrigin?]
    cases Reshape.indexBeforeInsert? i row <;> rfl
  | removeRow i =>
    rw [rowAlone, hrows, reshapeRows, Reshape.getElem?_eraseIdx_eq]
    rfl
  | insertColumn i | removeColumn i =>
    rw [rowAlone, hrows, reshapeRows, List.getElem?_map]
    show _ = t.rowAlone row
    rw [rowAlone]
    cases t.rows[row]? <;> rfl

theorem getD_insertIfAny {α : Type} (l : List α) (a : α) (i j : Nat) :
    (insertIfAny i a l)[j]?.getD a =
      ((Reshape.indexBeforeInsert? i j).map fun k => l[k]?.getD a).getD a := by
  unfold insertIfAny insertAt
  split
  · rename_i hempty
    rw [List.isEmpty_iff.1 hempty]
    cases Reshape.indexBeforeInsert? i j <;> rfl
  · exact Reshape.getD_insertIdx l a i j

theorem columnAlone_reshape (h : t.reshape r = .ok t') (col : Nat) :
    t'.columnAlone col = ((r.colOrigin? col).map t.columnAlone).getD {} := by
  have hcolumns := columns_of_reshape_eq_ok h
  cases r with
  | insertColumn i =>
    rw [columnAlone, hcolumns, reshapeColumns, getD_insertIfAny]
    rfl
  | removeColumn i =>
    rw [columnAlone, hcolumns, reshapeColumns, Reshape.getElem?_eraseIdx_eq]
    rfl
  | insertRow i | removeRow i =>
    rw [columnAlone, hcolumns]
    rfl

/-! ## Cells -/

/-- The literal cells of an inserted row are missing, those of an inserted column empty. -/
theorem literal?_of_origin?_eq_none (h : t.reshape r = .ok t') (hq : r.origin? q = none) :
    t'.literal? q = none ∨ t'.literal? q = some (.plain .empty) := by
  rw [literal?, (of_reshape_eq_ok h).1]
  cases r with
  | insertRow i =>
    have hrow : q.row = i := by
      refine Reshape.indexBeforeInsert?_eq_none_iff.1 (Option.eq_none_iff_forall_ne_some.2 ?_)
      simpa [Reshape.origin?, Reshape.rowOrigin?, Reshape.colOrigin?] using hq
    rw [reshapeRows, insertAt, hrow, List.getElem?_insertIdx_self]
    split <;> exact .inl rfl
  | insertColumn i =>
    have hcol : q.col = i := by
      simpa [Reshape.origin?, Reshape.rowOrigin?, Reshape.colOrigin?,
        Reshape.indexBeforeInsert?_eq_none_iff] using hq
    rw [reshapeRows, List.getElem?_map, hcol]
    cases t.rows[q.row]? with
    | none => exact .inl rfl
    | some row =>
      simp only [Option.map_some, Option.bind_some, insertIfAny, insertAt]
      split
      · rename_i hempty
        exact .inl (by rw [List.isEmpty_iff.1 hempty]; rfl)
      · rw [List.getElem?_insertIdx_self]
        split
        · exact .inr rfl
        · exact .inl rfl
  | removeRow i | removeColumn i => cases hq

theorem layers_reshape (h : t.reshape r = .ok t') (overlays : List Overlay) :
    t'.layers (overlays.map (·.reshape r)) = (t.layers overlays).map (·.reshape r) := by
  rw [layers, layers, List.map_append, overlay?, overlay?, (of_reshape_eq_ok h).2]
  cases t.block <;> rfl

/-- The cells of the new grid come from where the change of shape takes them; those of an inserted
    row or column are empty. -/
theorem clearMarks_cellAt_grid_reshape (h : t.reshape r = .ok t') (hfits : options.Fits)
    (hmoves : ∀ o ∈ t.layers overlays, o.MovesWithin r options) (q : Coord) :
    ((t'.grid (overlays.map (·.reshape r)) options).cellAt q).clearMarks =
      ((r.origin? q).map fun p => ((t.grid overlays options).cellAt p).clearMarks).getD .blank := by
  rw [clearMarks_cellAt_grid, cellAt_merged_eq, writesAt, layers_reshape h, List.flatMap_map]
  cases horigin : r.origin? q with
  | some p =>
    have hmove := Reshape.origin?_eq_some_iff.1 horigin
    rw [Option.map_some, Option.getD_some, clearMarks_cellAt_grid, cellAt_merged_eq, writesAt,
      literal?_reshape h hmove]
    congr 3
    exact List.flatMap_congr fun o ho => (hmoves o ho).writesAt_reshape hfits hmove
  | none =>
    have hnil : ((t.layers overlays).flatMap fun o => (o.reshape r).writesAt options q) = [] :=
      List.flatMap_eq_nil_iff.2 fun o _ => Overlay.writesAt_reshape_of_origin?_eq_none horigin
    rw [hnil, List.append_nil]
    -- An empty content written on an empty cell leaves it empty.
    rcases literal?_of_origin?_eq_none h horigin with hnone | hempty
    · rw [hnone]
      rfl
    · rw [hempty]
      exact Cell.apply_ofContent _ _

/-- A change of shape of a table and of the overlays on top of it commutes with building the grid:
    each cell comes from where the change takes it, and so does what rows and columns carry
    themselves.  The cells of an inserted row or column are empty.  A change that is refused leaves
    the table as it is. -/
theorem grid_reshape (t : Table) (overlays : List Overlay) (options : Options) (r : Reshape) :
    (∀ t', t.reshape r = .ok t' → options.Fits →
      (∀ o ∈ t.layers overlays, o.MovesWithin r options) →
      (∀ q, ((t'.grid (overlays.map (·.reshape r)) options).cellAt q).clearMarks =
        ((r.origin? q).map fun p =>
          ((t.grid overlays options).cellAt p).clearMarks).getD .blank) ∧
      (∀ row, t'.rowAlone row = ((r.rowOrigin? row).map t.rowAlone).getD {}) ∧
      ∀ col, t'.columnAlone col = ((r.colOrigin? col).map t.columnAlone).getD {}) ∧
    ∀ cause, t.reshape r = .error cause →
      Document.service.reshape r t = (.failed (.refused cause), t) := by
  refine ⟨?_, ?_⟩
  · intro t' h hfits hmoves
    exact ⟨clearMarks_cellAt_grid_reshape h hfits hmoves, rowAlone_reshape h,
      columnAlone_reshape h⟩
  · intro cause h
    rw [Document.service]
    simp only [h]

theorem grid_reshape_alias :
    let block : DataBlock := { overlay := Overlay.empty.insert "A03" (.plain (.text "b")) }
    let t : Table := { rows := [{ cells := [.plain (.text "a")] }], block := some block }
    let overlays := [Overlay.empty.insert "b2" (.plain (.text "c"))]
    ∃ t', t.reshape (.insertRow 1) = .ok t' ∧
      (∀ q, ((t'.grid (overlays.map (·.reshape (.insertRow 1))) {}).cellAt q).clearMarks =
        (((Reshape.insertRow 1).origin? q).map fun p =>
          ((t.grid overlays {}).cellAt p).clearMarks).getD .blank) ∧
      (∀ row, t'.rowAlone row = (((Reshape.insertRow 1).rowOrigin? row).map t.rowAlone).getD {}) ∧
      ∀ col, t'.columnAlone col =
        (((Reshape.insertRow 1).colOrigin? col).map t.columnAlone).getD {} := by
  exact ⟨_, rfl, (grid_reshape _ _ _ _).1 _ rfl (by decide) (by decide +kernel)⟩

end Table

end TableGrid
