import Mathlib.Data.List.Induction
import Mathlib.Data.List.Infix
import TableGrid.Proofs.Engine.Operation
import TableGrid.Proofs.Grid.Build
import TableGrid.Proofs.Grid.Owners

/-!
# The grid agrees with a rebuild

An operation builds the grid anew, or it writes contents into it in place (`Sheet.Writes`), and back
when the service refuses a save.  As long as the tables stay within the limits of the options, the
grid is always the one that would be built from the table and the overlay.  Beyond the limits it
still has the same shape.

## Key results

- `writes_or_built`: what an operation does to the sheet
- `Writes.grid_eq`, `Writes.shape_eq`: contents written in place
- `isBuilt_perform`, `hasShape_perform`: one operation
- `isBuilt_run`: a run of operations
-/

namespace TableGrid

/-- Whether the limits are 64-bit numbers. -/
def Options.Fits (options : Options) : Prop :=
  options.maxRows ≤ Text.maxWord ∧ options.maxCols ≤ Text.maxWord

/-- Whether what a table declares lies within the limits of the options. -/
def Table.Within (t : Table) (options : Options) : Prop :=
  t.declaredRows ≤ options.maxRows ∧ t.declaredCols ≤ options.maxCols

instance (options : Options) : Decidable options.Fits := inferInstanceAs (Decidable (_ ∧ _))

instance (t : Table) (options : Options) : Decidable (t.Within options) :=
  inferInstanceAs (Decidable (_ ∧ _))

theorem Options.fits_of_admits {options : Options} {p : Coord} (h : options.Fits)
    (hadm : options.admits p = true) : p.Fits := by
  simp only [Options.admits, Bool.and_eq_true, decide_eq_true_eq] at hadm
  obtain ⟨hrows, hcols⟩ := h
  exact ⟨by omega, by omega⟩

namespace Sheet

variable {s t u : Sheet}

/-- The grid that would be built. -/
def built (s : Sheet) : Grid := s.table.grid [s.overlay] s.options

/-- What becomes of a sheet when contents of its cells are written in place, and saves begin and
    end. -/
inductive Writes (s : Sheet) : Sheet → Prop
  | refl : Writes s s
  | mark {t : Sheet} (saves : Saves) (stale : Bool) (h : Writes s t) :
    Writes s { t with saves, stale }
  | write {t : Sheet} (p : Coord) (c : Content) (hin : t.grid.contains p = true)
    (h : Writes s t) :
    Writes s { t with grid := t.grid.setContent p c, overlay := t.overlay.setContent p c }

theorem Writes.trans (h : s.Writes t) (h' : t.Writes u) : s.Writes u := by
  induction h' with
  | refl => exact h
  | mark saves stale _ ih => exact ih.mark saves stale
  | write p c hin _ ih => exact ih.write p c hin

/-- Contents written in place do not change the shape of the grid. -/
theorem Writes.map_shape (h : s.Writes t) : t.grid.map Cell.shape = s.grid.map Cell.shape := by
  induction h with
  | refl => rfl
  | mark saves stale _ ih => exact ih
  | write p c hin _ ih => exact (Grid.map_shape_setContent _ p c).trans ih

/-- If the grid has the shape of a rebuild, it keeps it. -/
theorem Writes.shape_eq (h : s.Writes t)
    (hs : s.grid.map Cell.shape = s.built.map Cell.shape) :
    t.grid.map Cell.shape = t.built.map Cell.shape := by
  induction h with
  | refl => exact hs
  | mark saves stale _ ih => exact ih
  | @write t p c hin _ ih =>
    have hin' : (t.table.grid [t.overlay] t.options).contains p = true :=
      (Grid.contains_congr ih p).symm.trans hin
    exact (Grid.map_shape_setContent t.grid p c).trans
      (ih.trans (Table.map_shape_grid_setContent c hin').symm)

/-- Within the limits, if the grid is the one of a rebuild, it stays so. -/
theorem Writes.grid_eq (h : s.Writes t) (hfits : s.options.Fits)
    (hwithin : s.table.Within s.options) (hs : s.grid = s.built) : t.grid = t.built := by
  have hlimits : t.options.Fits ∧ t.table.Within t.options := by
    induction h with
    | refl => exact ⟨hfits, hwithin⟩
    | mark saves stale _ ih => exact ih
    | write p c hin _ ih => exact ih
  induction h with
  | refl => exact hs
  | mark saves stale _ ih => exact ih hlimits
  | @write t p c hin _ ih =>
    -- A cell of the grid lies within the limits, so its entry is not skipped by a rebuild.
    obtain ⟨hfits, hrows, hcols⟩ := hlimits
    have heq : t.grid = t.table.grid [t.overlay] t.options := ih ⟨hfits, hrows, hcols⟩
    rw [heq] at hin
    have hadm := Table.admits_of_contains hrows hcols hin
    exact (congrArg (·.setContent p c) heq).trans
      (Table.grid_setContent c hadm (Options.fits_of_admits hfits hadm) hin).symm

end Sheet

namespace Engine

variable {σ : Type} {service : Service σ} {e : Engine σ}

/-- Whether the grid is the one that would be built. -/
def IsBuilt (e : Engine σ) : Prop := e.grid = e.table.grid [e.overlay] e.options

/-- Whether the grid has the shape of the one that would be built. -/
def HasShape (e : Engine σ) : Prop :=
  e.grid.map Cell.shape = (e.table.grid [e.overlay] e.options).map Cell.shape

/-- Whether the table of an engine lies within its limits. -/
def Within (e : Engine σ) : Prop := e.options.Fits ∧ e.table.Within e.options

instance (e : Engine σ) : Decidable e.Within := inferInstanceAs (Decidable (_ ∧ _))

theorem isBuilt_rebuilt (e : Engine σ) : (rebuilt e).IsBuilt := rfl

theorem IsBuilt.hasShape (h : e.IsBuilt) : e.HasShape := congrArg (Grid.map Cell.shape) h

/-! ## Contents written in place -/

theorem writes_begun {p : Coord} (c : Content) (hcan : e.canSave p = true) :
    e.sheet.Writes (e.begun p c).sheet :=
  .mark _ _ (.write p c (canSave_iff.1 hcan).2 .refl)

theorem contains_of_accepts {t : Ticket} (h : e.accepts t = true) :
    e.grid.contains t.coord = true := by
  simp only [accepts, shows, Bool.and_eq_true] at h
  cases hget : e.grid.get? t.coord with
  | none =>
    rw [hget] at h
    cases h.2
  | some cell => exact Grid.get?_isSome_iff.1 (by rw [hget]; rfl)

theorem writes_finished (e : Engine σ) (t : Ticket) (persisted : Content) :
    e.sheet.Writes (e.finished t persisted).sheet := by
  unfold finished
  split
  · rename_i haccepts
    rw [Bool.and_eq_true] at haccepts
    exact .mark _ _ (.write _ persisted (contains_of_accepts haccepts.1) .refl)
  · exact .mark _ _ .refl

/-- A save, however it goes. -/
theorem writes_save (service : Service σ) (e : Engine σ) (p : Coord) (c : Content) :
    e.sheet.Writes (after (save service p c) e).sheet := by
  -- Refused saves restore the grid and the overlay; all others write a content into both.
  rcases after_save_cases service e p c with
    ⟨-, heq⟩ | ⟨hcan, store, ⟨persisted, -, heq⟩ | ⟨cause, -, heq⟩ | ⟨-, heq⟩⟩
  · rw [heq]
    exact .refl
  · rw [heq]
    exact (writes_begun c hcan).trans
      (writes_finished ({ e.begun p c with store } : Engine σ) _ persisted)
  · rw [heq]
    exact .mark _ _ .refl
  · rw [heq]
    exact writes_begun c hcan

/-! ## Runs -/

/-- A change of shape builds the grid anew or leaves it alone. -/
theorem writes_or_built_reshape (service : Service σ) (r : Reshape) (e : Engine σ) :
    e.sheet.Writes (after (reshape service r) e).sheet ∨ (after (reshape service r) e).IsBuilt := by
  obtain ⟨store, ⟨table, -, heq⟩ | ⟨cause, -, heq⟩ | ⟨-, heq⟩⟩ := reshape_cases service r e
  -- Only an answer changes the table, and then the grid is built.
  · rw [heq]
    exact .inr (isBuilt_rebuilt _)
  · rw [heq]
    exact .inl (.mark _ _ .refl)
  · rw [heq]
    exact .inl (.mark _ _ .refl)

/-- An operation writes contents in place or builds the grid anew. -/
theorem writes_or_built (service : Service σ) (e : Engine σ) (op : Operation) :
    e.sheet.Writes (perform service e op).sheet ∨ (perform service e op).IsBuilt := by
  cases op with
  | interact i =>
    rw [perform, sheet_interact]
    cases i.saving? e with
    | none => exact .inl .refl
    | some save => exact .inl (writes_save service e save.1 save.2)
  | beginSave p c =>
    rw [perform, after_beginSave]
    split
    · rename_i hcan
      exact .inl (writes_begun c hcan)
    · exact .inl .refl
  | finishSave ticket persisted =>
    rw [perform, after_finishSave]
    exact .inl (writes_finished e ticket persisted)
  | abandonSave ticket => exact .inl (.mark _ _ .refl)
  | changeShape request =>
    rw [perform, changeShape_eq]
    split
    · exact writes_or_built_reshape service _ e
    · exact .inl .refl
  | changeAttributes request =>
    rw [perform]
    rcases changeAttributes_cases e request with heq | ⟨selection, -, heq⟩
    · rw [heq]
      exact .inl .refl
    · rw [heq]
      exact .inr (isBuilt_rebuilt _)
  | rebuild => exact .inr (isBuilt_rebuilt _)
  | replaceTable table => exact .inr (isBuilt_rebuilt _)

/-- One operation preserves that the grid is the one that would be built. -/
theorem isBuilt_perform (service : Service σ) (h : e.IsBuilt) (hwithin : e.Within)
    (op : Operation) : (perform service e op).IsBuilt := by
  rcases writes_or_built service e op with hwrites | hbuilt
  · exact hwrites.grid_eq hwithin.1 hwithin.2 h
  · exact hbuilt

/-- One operation preserves that the grid has the shape of the one that would be built. -/
theorem hasShape_perform (service : Service σ) (h : e.HasShape) (op : Operation) :
    (perform service e op).HasShape := by
  rcases writes_or_built service e op with hwrites | hbuilt
  · exact hwrites.shape_eq h
  · exact hbuilt.hasShape

theorem Started.isBuilt (h : Started e) : e.IsBuilt := by
  cases h with
  | opened => exact isBuilt_rebuilt _
  | withOverlay => exact isBuilt_rebuilt _

/-- However a run goes, and whatever the service answers, the grid is the one that would be built
    from the table and the overlay, as long as every table on the way declares no more than the
    options allow. -/
theorem isBuilt_run (service : Service σ) (hstart : Started e) (hfits : e.options.Fits)
    (ops : List Operation)
    (hwithin : ∀ done, done <+: ops → (run service e done).table.Within e.options) :
    (run service e ops).grid =
      (run service e ops).table.grid [(run service e ops).overlay] (run service e ops).options := by
  induction ops using List.reverseRecOn with
  | nil => exact hstart.isBuilt
  | append_singleton ops op ih =>
    have hsub : ∀ done, done <+: ops → done <+: ops ++ [op] := fun done h =>
      h.trans (List.prefix_append _ _)
    have hbefore : (run service e ops).Within := by
      rw [Engine.Within, options_run]
      exact ⟨hfits, hwithin ops (List.prefix_append _ _)⟩
    rw [run_concat]
    exact isBuilt_perform service (ih fun done h => hwithin done (hsub done h)) hbefore op

theorem isBuilt_run_refused :
    let service : Service Unit :=
      { save := fun _ _ _ => (.failed .unreachable, ())
        load := fun _ _ => (.unanswered, ())
        reshape := fun _ _ => (.answered (.ofSize 1 1), ()) }
    let e := run service (opened (.ofSize 2 2) () {})
      [.interact (.save ⟨1, 0⟩ (.text "x")), .changeShape (.removeColumn none)]
    e.grid = e.table.grid [e.overlay] e.options := by
  refine isBuilt_run _ (.opened _ _ _) (by decide) _ ?_
  simp only [← List.mem_inits]
  decide +kernel

end Engine

end TableGrid
