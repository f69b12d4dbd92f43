import TableGrid.Proofs.Engine.Phase

/-!
# Looking at a table

Selecting, moving, opening the editor and leaving it again are meant to change nothing.  Clicks and
keys do save the draft of an open editor, but only if its text differs from the one that the editor
was opened with, and as long as nobody writes into it, it never does (`Editor.Unchanged`).  So an
engine that is only looked at keeps its table, and the service gets no request but loads.

## Key results

- `looked_commitDraft`: closing the editor saves nothing
- `looked_interact`, `looked_run`: what is left of interactions that only look
- `run_of_looks`: they change nothing and send loads at most
-/

namespace TableGrid

/-- Whether an interaction only looks: it neither writes a text nor saves one. -/
def Interaction.looks : Interaction → Bool
  | .select _ _ | .move _ _ | .activate _ | .key _ | .commitDraft | .cancelEdit | .expandEditor
  | .finishExpanded none => true
  | .updateDraft _ | .commitEdit _ | .finishExpanded (some _) | .save _ _ => false

namespace Service

/-- A request to a service. -/
inductive Request where
  | save (p : Coord) (c : Content)
  | load (p : Coord)
  | reshape (r : Reshape)

variable {σ : Type}

/-- The service that also lists its requests. -/
def recorded (service : Service σ) : Service (σ × List Request) where
  save p c s :=
    let (reply, store) := service.save p c s.1
    (reply, store, s.2 ++ [.save p c])
  load p s :=
    let (reply, store) := service.load p s.1
    (reply, store, s.2 ++ [.load p])
  reshape r s :=
    let (reply, store) := service.reshape r s.1
    (reply, store, s.2 ++ [.reshape r])

/-- The state of a service after it has loaded cells. -/
def loaded (service : Service σ) (store : σ) (coords : List Coord) : σ :=
  coords.foldl (fun store p => (service.load p store).2) store

theorem loaded_append (service : Service σ) (store : σ) (coords coords' : List Coord) :
    service.loaded store (coords ++ coords') =
      service.loaded (service.loaded store coords) coords' :=
  List.foldl_append

/-- Loads are listed as such. -/
theorem recorded_loaded (service : Service σ) (s : σ × List Request) (coords : List Coord) :
    service.recorded.loaded s coords = (service.loaded s.1 coords, s.2 ++ coords.map .load) := by
  induction coords generalizing s with
  | nil => simp [loaded]
  | cons p coords ih =>
    have hload : (service.recorded.load p s).2 = ((service.load p s.1).2, s.2 ++ [.load p]) := rfl
    rw [loaded, List.foldl_cons, ← loaded, hload, ih, List.map_cons, List.append_assoc,
      List.singleton_append]
    rfl

end Service

namespace Editor

variable {e e' : Editor}

/-- Whether an open editor holds the text that it was opened with. -/
def Unchanged (e : Editor) : Prop := ∀ draft, e.draft? = some draft → draft.isModified = false

theorem unchanged_of_closed (h : e.phase.isEditing = false) : e.Unchanged := by
  intro draft hdraft
  cases e with
  | idle | selected => cases hdraft
  | inline | expanded => cases h

theorem unchanged_of_select (h : e.select = .ok e') : e'.Unchanged := by
  cases e <;> cases h <;> exact unchanged_of_closed rfl

/-- An editor opens on the text that has been loaded. -/
theorem unchanged_of_openInline {p : Coord} {text : String}
    (h : e.openInline (.opened p text) = .ok e') : e'.Unchanged := by
  have hopened : e'.draft? = some (.opened p text) := by cases e <;> cases h <;> rfl
  intro draft hdraft
  rw [hopened, Option.some.injEq] at hdraft
  simp [← hdraft, Draft.isModified, Draft.opened]

theorem Unchanged.expand (hu : e.Unchanged) (h : e.expand = .ok e') : e'.Unchanged := by
  cases e <;> cases h
  exact hu

theorem Unchanged.collapse (hu : e.Unchanged) (h : e.collapse = .ok e') : e'.Unchanged := by
  cases e <;> cases h
  exact hu

/-- An editor that is closed hands out what it held. -/
theorem Unchanged.finish {draft? : Option Draft} (hu : e.Unchanged)
    (h : e.finish = .ok (draft?, e')) :
    e'.Unchanged ∧ ∀ draft, draft? = some draft → draft.isModified = false := by
  cases e <;> cases h
  · exact ⟨hu, hu⟩
  · exact ⟨hu, hu⟩
  · exact ⟨unchanged_of_closed rfl, hu⟩

end Editor

namespace Engine

variable {σ α : Type} {service : Service σ} {e e' e'' : Engine σ}

/-! ## What looking leaves -/

/-- Whether an engine differs in cursor and editor only, the service has loaded cells at most, and
    an open editor holds the text that it was opened with. -/
structure Looked (service : Service σ) (e e' : Engine σ) : Prop where
  sheet : e'.sheet = e.sheet
  store : ∃ coords, e'.store = service.loaded e.store coords
  unchanged : e'.editor.Unchanged

theorem looked_of_store (hsheet : e'.sheet = e.sheet) (hstore : e'.store = e.store)
    (hunchanged : e'.editor.Unchanged) : Looked service e e' :=
  ⟨hsheet, ⟨[], hstore⟩, hunchanged⟩

theorem Looked.refl (h : e.editor.Unchanged) : Looked service e e := looked_of_store rfl rfl h

theorem Looked.trans (h : Looked service e e') (h' : Looked service e' e'') :
    Looked service e e'' := by
  obtain ⟨coords, hcoords⟩ := h.store
  obtain ⟨coords', hcoords'⟩ := h'.store
  refine ⟨h'.sheet.trans h.sheet, ⟨coords ++ coords', ?_⟩, h'.unchanged⟩
  rw [Service.loaded_append, ← hcoords, hcoords']

/-- What comes after looking and only looks has only looked. -/
theorem Looked.ends {action : Action σ α} (h : Looked service e e')
    (hends : Ends action e' (fun _ => Looked service e') (Looked service e')) :
    Ends action e' (fun _ => Looked service e) (Looked service e) :=
  hends.mono (fun _ _ => h.trans) fun _ => h.trans

/-! ## The editor -/

theorem looked_edit {step : Editor → Except PhaseConflict Editor} (h : e.editor.Unchanged)
    (hstep : ∀ editor, step e.editor = .ok editor → editor.Unchanged) :
    Ends (edit step) e (fun _ => Looked service e) (Looked service e) :=
  ends_edit (fun editor heq => looked_of_store rfl rfl (hstep editor heq)) (.refl h)

theorem looked_edit_select (h : e.editor.Unchanged) :
    Ends (edit Editor.select) e (fun _ => Looked service e) (Looked service e) :=
  looked_edit h fun _ => Editor.unchanged_of_select

theorem looked_expandEditor (h : e.editor.Unchanged) :
    Ends expandEditor e (fun _ => Looked service e) (Looked service e) :=
  looked_edit h fun _ => h.expand

theorem looked_finishEditing (h : e.editor.Unchanged) :
    Ends finishEditing e
      (fun draft? e' => Looked service e e' ∧
        ∀ draft, draft? = some draft → draft.isModified = false)
      (Looked service e) := by
  unfold Ends
  rw [finishEditing_eq]
  cases hfinish : e.editor.finish with
  | error cause => exact .refl h
  | ok closed =>
    obtain ⟨hunchanged, hdraft⟩ := h.finish hfinish
    exact ⟨looked_of_store rfl rfl hunchanged, hdraft⟩

theorem looked_cancelEdit (h : e.editor.Unchanged) :
    Ends cancelEdit e (fun _ => Looked service e) (Looked service e) :=
  (looked_finishEditing h).bind fun _ _ hclosed => hclosed.1

/-- Closing the editor saves nothing. -/
theorem looked_commitDraft (h : e.editor.Unchanged) :
    Ends (commitDraft service) e (fun _ => Looked service e) (Looked service e) := by
  refine (looked_finishEditing h).bind fun draft? e₁ ⟨hclosed, hdraft⟩ => ?_
  cases draft? with
  | none => exact hclosed
  | some draft =>
    simp only [hdraft draft rfl, Bool.not_false, if_true]
    exact hclosed

theorem looked_collapse (h : e.editor.Unchanged) :
    Ends (finishExpanded service none) e (fun _ => Looked service e) (Looked service e) :=
  (looked_edit h fun _ => h.collapse).bind fun _ _ => id

/-- Opening the editor sends a load. -/
theorem looked_openEditor (h : e.editor.Unchanged) (p : Coord) :
    Ends (openEditor service p) e (fun _ => Looked service e) (Looked service e) := by
  have hasked : Looked service e { e with store := (service.load p e.store).2 } :=
    ⟨rfl, ⟨[p], rfl⟩, h⟩
  refine ends_bind (ends_ask (fun answer => hasked.ends ?_) hasked)
  cases answer with
  | error cause => exact .refl h
  | ok content => exact looked_edit h fun _ => Editor.unchanged_of_openInline

theorem looked_openActive (h : e.editor.Unchanged) :
    Ends (openActive service) e (fun _ => Looked service e) (Looked service e) := by
  refine ends_get_bind ?_
  cases e.active? with
  | some p => exact looked_openEditor h p
  | none => exact .refl h

/-! ## The cursor -/

theorem looked_cursor (h : e.editor.Unchanged) (cursor : Cursor) :
    Looked service e { e with cursor } := looked_of_store rfl rfl h

theorem looked_clickAt (h : e.editor.Unchanged) (p : Coord) :
    Ends (clickAt p) e (fun _ => Looked service e) (Looked service e) := by
  refine (ends_clickAt p e).mono ?_ fun _ => id
  rintro _ _ ⟨cursor, rfl⟩
  exact looked_cursor h cursor

theorem looked_step (h : e.editor.Unchanged) (direction : Direction) (extend : Bool) :
    Ends (step direction extend) e (fun _ => Looked service e) (Looked service e) := by
  refine (ends_step direction extend e).mono ?_ ?_
  · rintro _ _ ⟨cursor, rfl⟩
    exact looked_cursor h cursor
  · rintro _ ⟨lock, rfl⟩
    exact looked_cursor h _

theorem looked_select (h : e.editor.Unchanged) (p : Coord) (extend : Bool) :
    Ends (select p extend) e (fun _ => Looked service e) (Looked service e) := by
  refine ends_bind (ends_ensureClosed (fun _ => ?_) (.refl h))
  refine ends_bind (ends_ensureFresh (ends_get_bind ?_) (.refl h))
  refine ends_bind (ends_ofExcept (fun _ _ => ?_) (.refl h))
  refine ends_bind (ends_orFail (fun answer _ => ?_) (.refl h))
  have hclicked : Looked service e { e with cursor := answer.2 } := looked_cursor h answer.2
  exact (hclicked.ends (looked_edit_select h)).bind fun _ _ => id

theorem looked_move (h : e.editor.Unchanged) (direction : Direction) (extend : Bool) :
    Ends (move direction extend) e (fun _ => Looked service e) (Looked service e) := by
  refine ends_bind (ends_ensureClosed (fun _ => ?_) (.refl h))
  refine ends_bind (ends_ensureFresh ?_ (.refl h))
  refine (looked_step h direction extend).bind fun target e₁ hmoved => ?_
  exact (hmoved.ends (looked_edit_select hmoved.unchanged)).bind fun _ _ => id

/-! ## Clicks and keys -/

theorem looked_click (h : e.editor.Unchanged) (p owner : Coord) :
    Ends (click service e p owner) e (fun _ => Looked service e) (Looked service e) := by
  unfold Engine.click
  split
  · exact looked_clickAt h p
  · split
    · refine (looked_commitDraft h).bind fun _ e₁ hcommitted => ?_
      refine (hcommitted.ends (looked_clickAt hcommitted.unchanged p)).bind fun _ e₂ hclicked => ?_
      exact hclicked.ends (looked_openEditor hclicked.unchanged owner)
    · refine (looked_clickAt h p).bind fun _ e₁ hclicked => ?_
      exact hclicked.ends (looked_edit_select hclicked.unchanged)

theorem looked_activate (h : e.editor.Unchanged) (p : Coord) :
    Ends (activate service p) e (fun _ => Looked service e) (Looked service e) := by
  rcases activate_eq service e p with ⟨owner, -, -, -, heq⟩ | ⟨-, heq⟩
  · unfold Ends
    rw [heq]
    exact looked_click h p owner
  · rw [ends_iff_after, heq]
    exact .refl h

theorem looked_travel (h : e.editor.Unchanged) (direction : Direction) (extend : Bool) :
    Ends (travel service direction extend) e (fun _ => Looked service e) (Looked service e) := by
  refine ends_get_bind ?_
  split
  · exact .refl h
  · split
    · exact (looked_move h direction extend).bind fun _ _ => id
    · -- While a cell is edited inline, its editor is left and another one opened at the target.
      refine (looked_commitDraft h).bind fun _ e₁ hcommitted => ?_
      refine ends_bind (ends_ensureFresh ?_ hcommitted)
      have hstep := hcommitted.ends (looked_step hcommitted.unchanged direction false)
      refine hstep.bind fun target e₂ hmoved => ?_
      exact hmoved.ends (looked_openEditor hmoved.unchanged target)

theorem looked_handleKey (h : e.editor.Unchanged) (key : Key) :
    Ends (handleKey service key) e (fun _ => Looked service e) (Looked service e) :=
  ends_handleKey key (.refl h) (looked_travel h) (looked_openActive h) (looked_cancelEdit h)
    fun _ _ => looked_expandEditor h

/-! ## Runs -/

theorem looked_interact (h : e.editor.Unchanged) {i : Interaction} (hi : i.looks = true) :
    Looked service e (e.interact service i) := by
  cases i with
  | select p extend => exact ends_iff_after.1 (looked_select h p extend)
  | move direction extend => exact ends_iff_after.1 (looked_move h direction extend)
  | activate p => exact ends_iff_after.1 (looked_activate h p)
  | key key => exact ends_iff_after.1 (looked_handleKey h key)
  | commitDraft => exact ends_iff_after.1 (looked_commitDraft h)
  | cancelEdit => exact ends_iff_after.1 (looked_cancelEdit h)
  | expandEditor => exact ends_iff_after.1 (looked_expandEditor h)
  | finishExpanded text? =>
    cases text? with
    | none => exact ends_iff_after.1 (looked_collapse h)
    | some text => cases hi
  | updateDraft text => cases hi
  | commitEdit text => cases hi
  | save p c => cases hi

theorem looked_run (h : e.editor.Unchanged) {is : List Interaction}
    (hlooks : ∀ i ∈ is, i.looks = true) :
    Looked service e (run service e (is.map .interact)) := by
  induction is generalizing e with
  | nil => exact .refl h
  | cons i is ih =>
    obtain ⟨hi, hrest⟩ := List.forall_mem_cons.1 hlooks
    have hstep : Looked service e (e.interact service i) := looked_interact h hi
    exact hstep.trans (ih hstep.unchanged hrest)

/-- Looking is not editing.  Whatever cells are selected and whatever editors are opened, expanded
    and left, as long as nothing is written all but cursor and editor stays as it is, table, grid
    and overlay in particular.  The service gets no request but loads, whether it answers, refuses
    or is silent. -/
theorem run_of_looks (service : Service σ) (hclosed : e.editor.phase.isEditing = false)
    {is : List Interaction} (hlooks : ∀ i ∈ is, i.looks = true) :
    let ops := is.map Operation.interact
    (run service e ops).sheet = e.sheet ∧
      (∃ coords, (run service e ops).store = service.loaded e.store coords) ∧
      ∀ requests, ∃ coords : List Coord,
        (run service.recorded { e with store := (e.store, requests) } ops).store =
          (service.loaded e.store coords, requests ++ coords.map .load) := by
  intro ops
  have hunchanged := Editor.unchanged_of_closed hclosed
  have hlooked : Looked service e (run service e ops) := looked_run hunchanged hlooks
  refine ⟨hlooked.sheet, hlooked.store, fun requests => ?_⟩
  -- The service that lists its requests is a service like any other.
  have hrecorded : Looked service.recorded { e with store := (e.store, requests) } _ :=
    looked_run (e := { e with store := (e.store, requests) }) hunchanged hlooks
  obtain ⟨coords, hcoords⟩ := hrecorded.store
  exact ⟨coords, hcoords.trans (Service.recorded_loaded service _ coords)⟩

theorem run_of_looks_tabbed :
    let t : Table := { rows := [{ cells := [.plain (.bool true), .plain (.bool false)] }] }
    let is : List Interaction := [.select ⟨0, 0⟩ false, .key .f2, .key (.tab false), .expandEditor,
      .finishExpanded none, .commitDraft]
    let e := opened t t {}
    (run Document.service e ((is.take 4).map .interact)).editor =
        .expanded (.opened ⟨0, 1⟩ "false") ∧
      (run Document.service e (is.map .interact)).sheet = e.sheet := by
  intro t is e
  exact ⟨by decide +kernel, (run_of_looks (e := e) Document.service rfl (by decide)).1⟩

end Engine

end TableGrid
