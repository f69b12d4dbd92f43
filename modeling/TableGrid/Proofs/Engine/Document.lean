import Mathlib.Data.List.Infix
import TableGrid.Proofs.Content
import TableGrid.Proofs.Engine.Built
import TableGrid.Proofs.Grid.Content

/-!
# The grid shows the document

An engine over the plain service keeps two tables: its own one with the overlay on top, and the
one of the service.  Saves and changes of shape go to both in different ways, yet the grid always
shows the table of the service.

## Key results

- `IsSynced.save`: a save
- `reshape_document_cases`, `IsSynced.reshape`: a change of shape
- `isSynced_run`: a run of saves and changes of shape
- `grid_run_document`: what the grid shows after a run
-/

namespace TableGrid

/-- An edit that goes to the document. -/
inductive Edit where
  | save (p : Coord) (c : Content)
  | changeShape (request : ShapeRequest)

/-- The operation that makes an edit. -/
def Edit.operation : Edit → Operation
  | .save p c => .interact (.save p c)
  | .changeShape request => .changeShape request

namespace Engine

variable {e : Engine Table} {p : Coord}

/-- Make edits one after the other. -/
def edited (e : Engine Table) (edits : List Edit) : Engine Table :=
  run Document.service e (edits.map Edit.operation)

/-- Whether the grid shows the table of the service, and that table holds what the overlay
    records. -/
structure IsSynced (e : Engine Table) : Prop where
  fresh : e.stale = false
  holds : e.store.Holds e.overlay
  height : e.grid.height = e.store.extent.1
  width : e.grid.width = e.store.extent.2
  content : ∀ p, e.grid.contains p = true → (e.grid.cellAt p).content = e.store.content p

theorem IsSynced.contains_iff (h : e.IsSynced) : e.grid.contains p = true ↔ e.store.Contains p := by
  rw [Grid.contains_iff, h.height, h.width]
  rfl

theorem fits_of_contains {t : Table} {options : Options} (hfits : options.Fits)
    (hlimits : t.InLimits options) (h : t.Contains p) : p.Fits :=
  Options.fits_of_admits hfits (hlimits.admits h)

theorem grid_rebuilt (e : Engine Table) :
    (rebuilt e).grid = e.table.grid [e.overlay] e.options := rfl

/-- A grid built from the table of the service shows it, with an overlay on top that the table
    holds. -/
theorem isSynced_rebuilt (hfits : e.options.Fits) (hlimits : e.store.InLimits e.options)
    (htable : e.table = e.store) (hholds : e.store.Holds e.overlay) : (rebuilt e).IsSynced where
  fresh := rfl
  holds := hholds
  height := by
    rw [grid_rebuilt, htable]
    exact hholds.height_grid hlimits
  width := by
    rw [grid_rebuilt, htable]
    exact hholds.width_grid hlimits
  -- The grid is that of the stored table with an overlay that the table holds.
  content := by
    intro p hin
    rw [grid_rebuilt, htable] at hin ⊢
    rw [Grid.contains_iff, hholds.height_grid hlimits, hholds.width_grid hlimits] at hin
    exact hholds.content_grid (hlimits.admits hin) (fits_of_contains hfits hlimits hin)

/-! ## Saves -/

/-- The plain service answers with the content it was given, so nothing is left to bring in. -/
theorem after_save_document (c : Content) (hcan : e.canSave p = true) :
    ∃ saves, after (save Document.service p c) e =
      { e.begun p c with store := e.store.setContent p c, saves } := by
  rcases after_save_cases Document.service e p c with
    ⟨hcannot, -⟩ | ⟨-, store, ⟨persisted, hreply, heq⟩ | ⟨cause, hreply, -⟩ | ⟨hreply, -⟩⟩
  · rw [hcan] at hcannot
    cases hcannot
  · obtain ⟨hpersisted, hstore⟩ := Prod.mk.inj hreply
    obtain rfl := Reply.answered.inj hpersisted
    rw [heq, finished, if_neg, ← hstore]
    · exact ⟨_, rfl⟩
    · rw [Bool.and_eq_true, Bool.not_eq_true']
      rintro ⟨haccepts, hdisagrees⟩
      -- An accepted ticket has a content that agrees with the one shown, hence with itself.
      simp only [accepts, shows, Bool.and_eq_true] at haccepts
      have hshows := haccepts.2
      split at hshows
      · rw [Content.agrees_trans (Content.agrees_symm hshows) hshows] at hdisagrees
        cases hdisagrees
      · cases hshows
  · cases (Prod.mk.inj hreply).1
  · cases (Prod.mk.inj hreply).1

theorem IsSynced.save (h : e.IsSynced) (hfits : e.options.Fits)
    (hlimits : e.store.InLimits e.options) (p : Coord) (c : Content) :
    (after (save Document.service p c) e).IsSynced := by
  cases hcan : e.canSave p with
  | false =>
    obtain ⟨error, herror⟩ := save_of_not_canSave Document.service c hcan
    rw [after_eq_of_error herror]
    exact h
  | true =>
    obtain ⟨saves, heq⟩ := after_save_document c hcan
    have hin := (canSave_iff.1 hcan).2
    have hcontains := h.contains_iff.1 hin
    have hp := fits_of_contains hfits hlimits hcontains
    have hextent := Table.extent_setContent c hp hcontains
    rw [heq]
    -- The content goes into the grid, the overlay and the stored table, none of which grows.
    refine ⟨h.fresh, h.holds.setContent c hp, ?_, ?_, ?_⟩
    · show (e.grid.setContent p c).height = (e.store.setContent p c).extent.1
      rw [Grid.height_setContent, hextent, h.height]
    · show (e.grid.setContent p c).width = (e.store.setContent p c).extent.2
      rw [Grid.width_setContent, hextent, h.width]
    · intro q hq
      change (e.grid.setContent p c).contains q = true at hq
      change ((e.grid.setContent p c).cellAt q).content = (e.store.setContent p c).content q
      rw [Grid.contains_setContent] at hq
      rw [Grid.cellAt_setContent hin, Table.content_setContent]
      split
      · rfl
      · exact h.content q hq

/-! ## Changes of shape -/

/-- The plain service answers with the table as it is reshaped, or refuses and keeps the one it
    has. -/
theorem reshape_document_cases (e : Engine Table) (r : Reshape) :
    (∃ t', e.store.reshape r = .ok t' ∧
        after (reshape Document.service r) e =
          rebuilt { e.awaitingShape with
            store := t', table := t', overlay := e.overlay.reshape r }) ∨
      ∃ cause, e.store.reshape r = .error cause ∧
        after (reshape Document.service r) e = { e.awaitingShape with stale := false } := by
  obtain ⟨store, hcases⟩ := reshape_cases Document.service r e
  cases hr : e.store.reshape r with
  | ok t' =>
    have hservice : Document.service.reshape r e.store = (.answered t', t') := by
      simp only [Document.service, hr]
    rw [hservice] at hcases
    rcases hcases with ⟨table, hreply, heq⟩ | ⟨cause, hreply, -⟩ | ⟨hreply, -⟩ <;> cases hreply
    exact .inl ⟨_, rfl, heq⟩
  | error cause =>
    have hservice : Document.service.reshape r e.store =
        (.failed (.refused cause), e.store) := by
      simp only [Document.service, hr]
    rw [hservice] at hcases
    rcases hcases with ⟨table, hreply, -⟩ | ⟨cause', hreply, heq⟩ | ⟨hreply, -⟩ <;> cases hreply
    exact .inr ⟨cause, rfl, heq⟩

theorem IsSynced.reshape (h : e.IsSynced) (hfits : e.options.Fits) (r : Reshape)
    (hlimits : (after (reshape Document.service r) e).store.InLimits e.options) :
    (after (reshape Document.service r) e).IsSynced := by
  rcases reshape_document_cases e r with ⟨t', hr, heq⟩ | ⟨cause, -, heq⟩
  · rw [heq] at hlimits ⊢
    exact isSynced_rebuilt hfits hlimits rfl (h.holds.reshape hr)
  · rw [heq]
    exact ⟨rfl, h.holds, h.height, h.width, h.content⟩

/-! ## Runs -/

/-- An edit, as long as the table of the service stays within the limits. -/
theorem IsSynced.perform (h : e.IsSynced) (hfits : e.options.Fits)
    (hlimits : e.store.InLimits e.options) (edit : Edit)
    (hafter : (perform Document.service e edit.operation).store.InLimits e.options) :
    (perform Document.service e edit.operation).IsSynced := by
  cases edit with
  | save p c => exact h.save hfits hlimits p c
  | changeShape request =>
    simp only [Edit.operation, Engine.perform, changeShape_eq] at hafter ⊢
    split
    · rename_i r hr
      rw [hr] at hafter
      exact h.reshape hfits r hafter
    · exact h

/-- An engine opened on the table of the service shows that table after any run of edits. -/
theorem isSynced_run {t : Table} {options : Options} (hfits : options.Fits)
    (hblock : t.blockOverlay.Canonical) (edits : List Edit)
    (hlimits : ∀ done, done <+: edits →
      ((opened t t options).edited done).store.InLimits options) :
    ((opened t t options).edited edits).IsSynced := by
  induction edits using List.reverseRecOn with
  | nil =>
    exact isSynced_rebuilt hfits (hlimits [] (List.prefix_refl _)) rfl (Table.holds_empty hblock)
  | append_singleton edits edit ih =>
    have hsub : ∀ done, done <+: edits → done <+: edits ++ [edit] := fun done h =>
      h.trans (List.prefix_append _ _)
    have hoptions : ((opened t t options).edited edits).options = options := options_run _ _ _
    have hbefore := hlimits edits (hsub _ (List.prefix_refl _))
    have hafter := hlimits _ (List.prefix_refl _)
    -- The last edit is made while the grid shows the table, and leaves it within the limits.
    have hstep : (opened t t options).edited (edits ++ [edit]) =
        perform Document.service ((opened t t options).edited edits) edit.operation := by
      rw [edited, List.map_append, List.map_singleton, run_concat]
      rfl
    rw [hstep] at hafter ⊢
    refine (ih fun done h => hlimits done (hsub done h)).perform ?_ ?_ edit ?_
    · rwa [hoptions]
    · rwa [hoptions]
    · rwa [hoptions]

/-- However many contents are saved and rows and columns are added and removed, the grid has the
    size of the table that the service keeps, and shows its contents, as long as that table stays
    within the limits of the options. -/
theorem grid_run_document {t : Table} {options : Options} (hfits : options.Fits)
    (hblock : t.blockOverlay.Canonical) (edits : List Edit)
    (hlimits : ∀ done, done <+: edits →
      ((opened t t options).edited done).store.InLimits options) :
    let e := (opened t t options).edited edits
    (e.grid.height, e.grid.width) = e.store.extent ∧
      ∀ p cell, e.grid.get? p = some cell → cell.content = e.store.content p := by
  have h := isSynced_run hfits hblock edits hlimits
  refine ⟨Prod.ext h.height h.width, ?_⟩
  intro p cell hcell
  have hin := Grid.get?_isSome_iff.1 (by rw [hcell]; rfl)
  have hcellAt : cell = ((opened t t options).edited edits).grid.cellAt p := by
    rw [Grid.cellAt, hcell]
    rfl
  rw [hcellAt]
  exact h.content p hin

theorem grid_run_document_shifted :
    let block : DataBlock := { overlay := Overlay.empty.insert "B2" (.plain (.text "b")) }
    let t : Table := { rows := [{ cells := [.plain (.text "a")] }], block := some block }
    let e := (opened t t {}).edited
      [.save ⟨0, 1⟩ (.text "c"), .changeShape (.addRow (some 0)),
        .changeShape (.removeColumn (some 0)), .save ⟨2, 0⟩ (.text "d")]
    (e.grid.height, e.grid.width) = e.store.extent ∧
      ∀ p cell, e.grid.get? p = some cell → cell.content = e.store.content p := by
  refine grid_run_document (by decide) ?_ _ ?_
  · intro key p hsome haddr
    change ((Overlay.empty.insert "B2" (.plain (.text "b"))).get? key).isSome at hsome
    rw [Overlay.get?_insert] at hsome
    split at hsome
    · rename_i heq
      rw [← heq, show Coord.ofAddress? "B2" = .ok ⟨1, 1⟩ by decide +kernel] at haddr
      obtain rfl := Except.ok.inj haddr
      rw [← heq]
      decide +kernel
    · rw [Overlay.get?_empty] at hsome
      cases hsome
  · simp only [← List.mem_inits]
    decide +kernel

end Engine

end TableGrid
