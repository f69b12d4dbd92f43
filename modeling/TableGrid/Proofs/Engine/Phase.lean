import TableGrid.Proofs.Engine.Awaiting

/-!
# Phases of a session

An editor goes through its phases while cursor and staleness change beside it, one after the other
and across requests that may fail.  Whatever an engine does follows from the state before
(`Engine.Follows`): the phase stays, or becomes the selected or the inline one, and nothing is
selected behind an idle editor.  The only way into the expanded editor leads from the inline one.

## Key results

- `follows_interact`, `follows_call`: interactions, and all that can be done with an engine
- `awaits_of_stale_call`: an engine is stale only while it waits for an answer
- `orderly_session`: what holds in any session
-/

namespace TableGrid

namespace Editor

variable {e e' e'' : Editor}

/-- Whether an editor stays in its phase, or goes to the selected or the inline one. -/
def Turns (e e' : Editor) : Prop :=
  e'.phase = e.phase ∨ e'.phase = .selected ∨ e'.phase = .inline

theorem Turns.refl (e : Editor) : e.Turns e := .inl rfl

theorem Turns.trans (h : e.Turns e') (h' : e'.Turns e'') : e.Turns e'' := by
  rcases h' with h' | h'
  · unfold Turns
    rw [h']
    exact h
  · exact .inr h'

/-- No editor becomes idle. -/
theorem Turns.idle (h : e.Turns e') (hidle : e'.phase = .idle) : e.phase = .idle := by
  rcases h with h | h | h
  · rw [← h, hidle]
  · cases hidle.symm.trans h
  · cases hidle.symm.trans h

/-- No editor becomes expanded. -/
theorem Turns.expanded (h : e.Turns e') (hexpanded : e'.phase = .expanded) :
    e.phase = .expanded := by
  rcases h with h | h | h
  · rw [← h, hexpanded]
  · cases hexpanded.symm.trans h
  · cases hexpanded.symm.trans h

theorem select_of_closed (h : e.editing? = none) : e.select = .ok .selected := by
  cases e with
  | idle => rfl
  | selected => rfl
  | inline draft => cases h
  | expanded draft => cases h

theorem turns_of_openInline {draft : Draft} (h : e.openInline draft = .ok e') : e.Turns e' := by
  cases e <;> cases h <;> exact .inr (.inr rfl)

theorem turns_of_collapse (h : e.collapse = .ok e') : e.Turns e' := by
  cases e <;> cases h
  exact .inr (.inr rfl)

theorem turns_of_finish {draft? : Option Draft} (h : e.finish = .ok (draft?, e')) : e.Turns e' := by
  cases e <;> cases h
  · exact .refl _
  · exact .refl _
  · exact .inr (.inl rfl)

theorem phase_modifyDraft (f : Draft → Draft) (e : Editor) : (e.modifyDraft f).phase = e.phase :=
  rfl

end Editor

namespace Engine

variable {σ α : Type} {service : Service σ} {e e' e'' : Engine σ}

/-! ## What follows from what -/

/-- Whether the editor stays in its phase or goes to the selected or the inline one, and nothing
    becomes selected behind an idle editor. -/
structure Follows (e e' : Engine σ) : Prop where
  turns : e.editor.Turns e'.editor
  selection : e'.editor.phase = .idle → e.cursor.selection = none → e'.cursor.selection = none

theorem Follows.refl (e : Engine σ) : e.Follows e := ⟨.refl _, fun _ => id⟩

theorem Follows.trans (h : e.Follows e') (h' : e'.Follows e'') : e.Follows e'' where
  turns := h.turns.trans h'.turns
  -- An editor that is idle at the end has been idle in between.
  selection hidle hnone := h'.selection hidle (h.selection (h'.turns.idle hidle) hnone)

/-- Nothing is selected where the selection stays. -/
theorem follows_of_selection (hturns : e.editor.Turns e'.editor)
    (hselection : e'.cursor.selection = e.cursor.selection) : e.Follows e' :=
  ⟨hturns, fun _ hnone => hselection.trans hnone⟩

/-- In the selected phase anything may be selected. -/
theorem follows_of_selected (h : e'.editor.phase = .selected) : e.Follows e' := by
  refine ⟨.inr (.inl h), fun hidle => ?_⟩
  cases hidle.symm.trans h

/-- Whether the editor is not idle, or something is selected. -/
def Engaged (e : Engine σ) : Prop := e.editor.phase = .idle → e.cursor.selection ≠ none

/-- What follows from an engaged engine may select anything. -/
theorem Engaged.follows (h : e.Engaged) (hturns : e.editor.Turns e'.editor) : e.Follows e' :=
  ⟨hturns, fun hidle hnone => absurd hnone (h (hturns.idle hidle))⟩

theorem engaged_of_phase (h : e.editor.phase ≠ .idle) : e.Engaged := fun hidle => absurd hidle h

/-- What follows from an engine follows from the one before. -/
theorem Follows.ends {action : Action σ α} (h : e.Follows e')
    (hends : Ends action e' (fun _ => e'.Follows) e'.Follows) :
    Ends action e' (fun _ => e.Follows) e.Follows :=
  hends.mono (fun _ _ => h.trans) fun _ => h.trans

/-! ## The editor -/

theorem follows_edit {step : Editor → Except PhaseConflict Editor}
    (h : ∀ editor, step e.editor = .ok editor → e.editor.Turns editor) :
    Ends (edit step) e (fun _ => e.Follows) e.Follows :=
  ends_edit (fun editor heq => follows_of_selection (h editor heq) rfl) (.refl e)

/-- Selecting succeeds while no editor is open. -/
theorem ends_edit_select {done : Unit → Engine σ → Prop} {stopped : Engine σ → Prop}
    (hclosed : e.editor.editing? = none) (hdone : done () { e with editor := .selected }) :
    Ends (edit Editor.select) e done stopped := by
  unfold Ends
  rw [edit_eq, Editor.select_of_closed hclosed]
  exact hdone

theorem follows_save (service : Service σ) (e : Engine σ) (p : Coord) (c : Content) :
    e.Follows (after (save service p c) e) := by
  obtain ⟨hundisturbed, heditor⟩ := undisturbed_save service e p c
  refine follows_of_selection ?_ (congrArg Cursor.selection hundisturbed.cursor)
  rw [heditor]
  exact .refl _

theorem follows_finishEditing (e : Engine σ) :
    Ends finishEditing e (fun _ => e.Follows) e.Follows := by
  unfold Ends
  rw [finishEditing_eq]
  cases hfinish : e.editor.finish with
  | ok closed => exact follows_of_selection (Editor.turns_of_finish hfinish) rfl
  | error cause => exact .refl e

theorem follows_cancelEdit (e : Engine σ) :
    Ends cancelEdit e (fun _ => e.Follows) e.Follows :=
  (follows_finishEditing e).bind fun _ _ => id

/-- A save that fails opens the inline editor again. -/
theorem follows_commitDraft (service : Service σ) (e : Engine σ) :
    Ends (commitDraft service) e (fun _ => e.Follows) e.Follows := by
  refine (follows_finishEditing e).bind fun draft? e₁ hclosed => hclosed.ends ?_
  cases draft? with
  | none => exact .refl e₁
  | some draft =>
    simp only
    split
    · exact .refl e₁
    · -- The save does not see the editor, which is closed by now.
      have hsave := follows_save service e₁ draft.coord (.text draft.text)
      refine ends_bind (ends_attempt ((ends_iff_after.2 hsave).mono (fun _ _ => id) ?_))
      intro e₂ hsaved
      refine ⟨fun error => ends_bind ?_, hsaved⟩
      exact hsaved.ends (follows_edit fun _ => Editor.turns_of_openInline)

theorem follows_updateDraft (text : String) (e : Engine σ) :
    Ends (updateDraft text) e (fun _ => e.Follows) e.Follows := by
  refine ends_get_bind ?_
  simp only
  split
  · exact .refl e
  · exact follows_of_selection (.inl (Editor.phase_modifyDraft _ _)) rfl

theorem follows_commitEdit (service : Service σ) (text : String) (e : Engine σ) :
    Ends (commitEdit service text) e (fun _ => e.Follows) e.Follows :=
  (follows_updateDraft text e).bind fun _ e₁ hupdated =>
    hupdated.ends (follows_commitDraft service e₁)

theorem follows_finishExpanded (service : Service σ) (text? : Option String) (e : Engine σ) :
    Ends (finishExpanded service text?) e (fun _ => e.Follows) e.Follows := by
  refine (follows_edit fun _ => Editor.turns_of_collapse).bind fun _ e₁ hcollapsed => ?_
  cases text? with
  | none => exact hcollapsed
  | some text =>
    refine ends_get_bind (ends_bind (ends_orFail (fun p _ => ?_) hcollapsed))
    have hsave := hcollapsed.trans (follows_save service e₁ p (.text text))
    refine (ends_iff_after.2 hsave).bind fun _ e₂ hsaved => ?_
    exact hsaved.trans (follows_of_selection (.inl (Editor.phase_modifyDraft _ _)) rfl)

theorem follows_openEditor (service : Service σ) (p : Coord) (e : Engine σ) :
    Ends (openEditor service p) e (fun _ => e.Follows) e.Follows := by
  have hasked : ∀ store, e.Follows { e with store } := fun _ => follows_of_selection (.refl _) rfl
  refine ends_bind (ends_ask (fun answer => (hasked _).ends ?_) (hasked _))
  cases answer with
  | error cause => exact .refl _
  | ok content => exact follows_edit fun _ => Editor.turns_of_openInline

theorem follows_openActive (service : Service σ) (e : Engine σ) :
    Ends (openActive service) e (fun _ => e.Follows) e.Follows := by
  refine ends_get_bind ?_
  cases e.active? with
  | some p => exact follows_openEditor service p e
  | none => exact .refl e

/-! ## The cursor -/

theorem follows_select (p : Coord) (extend : Bool) (e : Engine σ) :
    Ends (select p extend) e (fun _ => e.Follows) e.Follows := by
  refine ends_bind (ends_ensureClosed (fun hclosed => ?_) (.refl e))
  refine ends_bind (ends_ensureFresh (ends_get_bind ?_) (.refl e))
  refine ends_bind (ends_ofExcept (fun _ _ => ?_) (.refl e))
  refine ends_bind (ends_orFail ?_ (.refl e))
  rintro ⟨owner, cursor⟩ -
  -- Something is selected now, but no longer behind an idle editor.
  show Ends (edit Editor.select >>= fun _ => pure owner) { e with cursor } _ _
  exact ends_bind (ends_edit_select hclosed (follows_of_selected rfl))

/-- A step that leads nowhere leaves the selection. -/
theorem ends_step (direction : Direction) (extend : Bool) (e : Engine σ) :
    Ends (step direction extend) e (fun _ e' => ∃ cursor, e' = { e with cursor })
      (fun e' => ∃ lock, e' = { e with cursor := { e.cursor with lock } }) := by
  refine ends_get_bind ?_
  obtain ⟨lock, heq | ⟨p, target, -, heq⟩⟩ := e.cursor.move_cases e.grid direction extend
  · rw [heq]
    exact ⟨lock, rfl⟩
  · rw [heq]
    exact ⟨_, rfl⟩

theorem follows_move (direction : Direction) (extend : Bool) (e : Engine σ) :
    Ends (move direction extend) e (fun _ => e.Follows) e.Follows := by
  refine ends_bind (ends_ensureClosed (fun hclosed => ?_) (.refl e))
  refine ends_bind (ends_ensureFresh (ends_bind ?_) (.refl e))
  refine (ends_step direction extend e).mono ?_ ?_
  · rintro target _ ⟨cursor, rfl⟩
    exact ends_bind (ends_edit_select hclosed (follows_of_selected rfl))
  · rintro _ ⟨lock, rfl⟩
    exact follows_of_selection (.refl _) rfl

/-! ## Clicks and keys -/

theorem ends_clickAt (p : Coord) (e : Engine σ) {stopped : Engine σ → Prop} :
    Ends (clickAt p) e (fun _ e' => ∃ cursor, e' = { e with cursor }) stopped := by
  unfold Ends
  simp only [clickAt, modify_apply]
  split
  · exact ⟨_, rfl⟩
  · exact ⟨e.cursor, rfl⟩

/-- Behind an engaged engine a click may go anywhere. -/
theorem Engaged.clickAt (h : e.Engaged) (hfollows : e.Follows e') (p : Coord) :
    Ends (clickAt p) e' (fun _ => e.Follows) e.Follows := by
  refine (ends_clickAt p e').mono ?_ fun _ => id
  rintro _ _ ⟨cursor, rfl⟩
  exact h.follows hfollows.turns

theorem engaged_of_inline (h : e.editor.phase = .inline) : e.Engaged :=
  engaged_of_phase (by rw [h]; decide)

/-- A click that opens the editor finds one that is open, or an active cell. -/
theorem follows_click (service : Service σ) (p owner : Coord) (e : Engine σ)
    (hphase : e.editor.phase ≠ .expanded) :
    Ends (click service e p owner) e (fun _ => e.Follows) e.Follows := by
  unfold Engine.click
  split
  · rename_i hediting
    have hengaged : e.Engaged := engaged_of_phase fun hidle => by
      rw [Editor.editing?_eq_none (by rw [hidle]; decide) hphase] at hediting
      cases hediting
    exact hengaged.clickAt (.refl e) p
  · split
    · rename_i hopen
      have hengaged : e.Engaged := by
        rcases hopen with hinline | hactive
        · exact engaged_of_inline hinline
        · intro _ hnone
          rw [active?, Cursor.active?, hnone] at hactive
          cases hactive
      refine (follows_commitDraft service e).bind fun _ e₁ hcommitted => ?_
      refine (hengaged.clickAt hcommitted p).bind fun _ e₂ hclicked => ?_
      exact hclicked.ends (follows_openEditor service owner e₂)
    · rename_i hopen
      rw [not_or] at hopen
      have hclosed := Editor.editing?_eq_none hopen.1 hphase
      refine (ends_clickAt p e).bind ?_
      rintro _ _ ⟨cursor, rfl⟩
      exact ends_edit_select hclosed (follows_of_selected rfl)

theorem follows_activate (service : Service σ) (p : Coord) (e : Engine σ) :
    Ends (activate service p) e (fun _ => e.Follows) e.Follows := by
  rcases activate_eq service e p with ⟨owner, hphase, -, -, heq⟩ | ⟨-, heq⟩
  · unfold Ends
    rw [heq]
    exact follows_click service p owner e hphase
  · rw [ends_iff_after, heq]
    exact .refl e

/-- A key that moves on from the inline editor may select anything. -/
theorem follows_travel (service : Service σ) (direction : Direction) (extend : Bool)
    (e : Engine σ) : Ends (travel service direction extend) e (fun _ => e.Follows) e.Follows := by
  refine ends_get_bind ?_
  split
  · exact .refl e
  · split
    · exact (follows_move direction extend e).bind fun _ _ => id
    · rename_i hinline
      have hengaged := engaged_of_inline (not_not.1 hinline)
      refine (follows_commitDraft service e).bind fun _ e₁ hcommitted => ?_
      refine ends_bind (ends_ensureFresh (ends_bind ?_) hcommitted)
      refine (ends_step direction false e₁).mono ?_ ?_
      · rintro target _ ⟨cursor, rfl⟩
        have hmoved : e.Follows { e₁ with cursor } := hengaged.follows hcommitted.turns
        exact hmoved.ends (follows_openEditor service target _)
      · rintro _ ⟨lock, rfl⟩
        exact hengaged.follows hcommitted.turns

/-- Only the F2 key expands the inline editor. -/
theorem follows_handleKey (service : Service σ) (key : Key) (e : Engine σ)
    (h : key = .f2 → e.editor.phase ≠ .inline) :
    Ends (handleKey service key) e (fun _ => e.Follows) e.Follows :=
  ends_handleKey key (.refl e) (fun direction extend => follows_travel service direction extend e)
    (follows_openActive service e) (follows_cancelEdit e) fun hf2 hinline => absurd hinline (h hf2)

/-- Whether the inline editor has been expanded, and nothing else has happened. -/
def Expands (e e' : Engine σ) : Prop :=
  ∃ draft, e.editor = .inline draft ∧ e' = { e with editor := .expanded draft }

theorem expandEditor_cases (e : Engine σ) :
    after expandEditor e = e ∨ e.Expands (after expandEditor e) := by
  unfold after
  rw [expandEditor, edit_eq]
  cases heditor : e.editor with
  | idle => exact .inl rfl
  | selected => exact .inl rfl
  | inline draft => exact .inr ⟨draft, heditor, rfl⟩
  | expanded draft => exact .inl rfl

/-- Interactions follow, or expand the inline editor. -/
theorem follows_interact (service : Service σ) (e : Engine σ) (i : Interaction) :
    e.Follows (e.interact service i) ∨ e.Expands (e.interact service i) := by
  have hexpand : e.Follows (after expandEditor e) ∨ e.Expands (after expandEditor e) := by
    refine (expandEditor_cases e).imp_left fun heq => ?_
    rw [heq]
    exact .refl e
  cases i with
  | select p extend => exact .inl (ends_iff_after.1 (follows_select p extend e))
  | move direction extend => exact .inl (ends_iff_after.1 (follows_move direction extend e))
  | activate p => exact .inl (ends_iff_after.1 (follows_activate service p e))
  | key key =>
    by_cases hf2 : key = .f2 ∧ e.editor.phase = .inline
    · obtain ⟨rfl, hinline⟩ := hf2
      have heq : handleKey service .f2 e = expandEditor e := by
        simp only [handleKey, bind_apply, get_apply, hinline]
        rfl
      have hafter : e.interact service (.key .f2) = after expandEditor e := by
        rw [interact, after, heq]
        rfl
      rw [hafter]
      exact hexpand
    · rw [not_and] at hf2
      exact .inl (ends_iff_after.1 (follows_handleKey service key e hf2))
  | updateDraft text => exact .inl (ends_iff_after.1 (follows_updateDraft text e))
  | commitEdit text => exact .inl (ends_iff_after.1 (follows_commitEdit service text e))
  | commitDraft => exact .inl (ends_iff_after.1 (follows_commitDraft service e))
  | cancelEdit => exact .inl (ends_iff_after.1 (follows_cancelEdit e))
  | expandEditor => exact hexpand
  | finishExpanded text? => exact .inl (ends_iff_after.1 (follows_finishExpanded service text? e))
  | save p c => exact .inl (follows_save service e p c)

/-! ## Operations and calls -/

/-- A rebuild touches neither the editor nor a cursor that selects nothing. -/
theorem follows_rebuilt (heditor : e'.editor = e.editor) (hcursor : e'.cursor = e.cursor) :
    e.Follows (rebuilt e') := by
  refine ⟨.inl (congrArg Editor.phase heditor), fun _ hnone => ?_⟩
  exact Cursor.revalidate_of_none _ (by rw [hcursor, hnone])

/-- A change of shape closes the editor, even if it fails. -/
theorem follows_reshape (service : Service σ) (r : Reshape) (e : Engine σ) :
    e.Follows (after (reshape service r) e) := by
  refine follows_of_selected ?_
  obtain ⟨store, ⟨table, -, heq⟩ | ⟨cause, -, heq⟩ | ⟨-, heq⟩⟩ := reshape_cases service r e <;>
    rw [heq] <;> rfl

/-- Calls follow, or expand the inline editor. -/
theorem follows_call (service : Service σ) (e : Engine σ) (c : Call σ) :
    e.Follows (call service e c) ∨ e.Expands (call service e c) := by
  cases c with
  | withOverlay overlay => exact .inl (follows_rebuilt rfl rfl)
  | withStore store => exact .inl (follows_of_selection (.refl _) rfl)
  | perform op =>
    cases op with
    | interact i => exact follows_interact service e i
    | beginSave p c =>
      rw [call, perform, after_beginSave]
      split
      · exact .inl (follows_of_selection (.refl _) rfl)
      · exact .inl (.refl e)
    | finishSave ticket persisted =>
      obtain ⟨hundisturbed, heditor⟩ := undisturbed_finished e ticket persisted
      rw [call, perform, after_finishSave]
      refine .inl (follows_of_selection ?_ (congrArg Cursor.selection hundisturbed.cursor))
      exact .inl (congrArg Editor.phase heditor)
    | abandonSave ticket => exact .inl (follows_of_selection (.refl _) rfl)
    | changeShape request =>
      rw [call, perform, changeShape_eq]
      split
      · exact .inl (follows_reshape service _ e)
      · exact .inl (.refl e)
    | changeAttributes request =>
      rw [call, perform]
      rcases changeAttributes_cases e request with heq | ⟨selection, -, heq⟩
      · rw [heq]
        exact .inl (.refl e)
      · rw [heq]
        exact .inl (follows_rebuilt rfl rfl)
    | rebuild => exact .inl (follows_rebuilt rfl rfl)
    | replaceTable table => exact .inl (follows_rebuilt rfl rfl)

/-! ## Staleness -/

/-- Only a change of shape makes an engine stale. -/
theorem stale_of_call {c : Call σ} (hc : c.settles = false)
    (h : (call service e c).stale = true) : e.stale = true := by
  cases c with
  | withOverlay overlay => cases hc
  | withStore store => exact h
  | perform op =>
    cases op with
    | interact i =>
      have hsheet : (e.interact service i).stale = _ :=
        congrArg Sheet.stale (sheet_interact service e i)
      rw [call, perform, hsheet] at h
      cases hsave : i.saving? e with
      | none => rwa [hsave] at h
      | some save =>
        rw [hsave] at h
        exact (unchanged_save service e save.1 save.2).2.symm.trans h
    | beginSave p c =>
      rw [call, perform, after_beginSave] at h
      split at h <;> exact h
    | finishSave ticket persisted =>
      rw [call, perform, after_finishSave, finished] at h
      split at h <;> exact h
    | abandonSave ticket => exact h
    | changeAttributes request =>
      rw [call, perform] at h
      rcases changeAttributes_cases e request with heq | ⟨selection, -, heq⟩
      · rwa [heq] at h
      · rw [heq] at h
        cases h
    | changeShape request => cases hc
    | rebuild => cases hc
    | replaceTable table => cases hc

/-- An engine is stale only while a change of shape waits for its answer. -/
theorem awaits_of_stale_call (service : Service σ) (h : e.stale = true → e.Awaits) (c : Call σ)
    (hstale : (call service e c).stale = true) : (call service e c).Awaits := by
  -- Calls that do not settle leave a waiting engine as it is; of the others only a change of shape
  -- without an answer leaves it stale.
  cases hc : c.settles with
  | false =>
    have hwaits := h (stale_of_call hc hstale)
    obtain ⟨store, heq⟩ := hwaits.call service hc
    rw [heq]
    exact hwaits.withStore store
  | true =>
    cases c with
    | withOverlay overlay => cases hstale
    | withStore store => cases hc
    | perform op =>
      cases op with
      | changeShape request =>
        rw [call, perform, changeShape_eq] at hstale ⊢
        cases hsent : e.reshape? request with
        | none =>
          rw [hsent] at hstale
          exact h hstale
        | some r =>
          rw [hsent] at hstale
          simp only at hstale ⊢
          obtain ⟨store, ⟨table, -, heq⟩ | ⟨cause, -, heq⟩ | ⟨-, heq⟩⟩ := reshape_cases service r e
          · rw [heq] at hstale
            cases hstale
          · rw [heq] at hstale
            cases hstale
          · exact ⟨e, store, heq⟩
      | rebuild => cases hstale
      | replaceTable table => cases hstale
      | _ => cases hc

/-! ## Sessions -/

/-- What holds between any two calls. -/
structure Orderly (service : Service σ) (e : Engine σ) : Prop where
  /-- There is a draft exactly while an editor is open. -/
  draft : e.editor.draft?.isSome = e.editor.phase.isEditing
  idle : e.editor.phase = .idle → e.cursor.selection = none
  stale : e.stale = true → e.editor.phase = .selected ∧ e.editor.draft? = none ∧
    e.cursor.selection = none ∧ ∀ p, e.saves.inFlight p = false
  /-- The expanded editor is entered from the inline one, on the same draft. -/
  expands : ∀ c, (call service e c).editor.phase = .expanded →
    e.editor.phase = .expanded ∨ e.Expands (call service e c)
  /-- The expanded editor has to be collapsed before it can be closed. -/
  commitDraft : e.editor.phase = .expanded →
    commitDraft service e = .error (.failed (.conflict ⟨.finish, .expanded⟩)) e
  cancelEdit : e.editor.phase = .expanded →
    cancelEdit e = .error (.failed (.conflict ⟨.finish, .expanded⟩)) e

theorem finishEditing_of_expanded (h : e.editor.phase = .expanded) :
    finishEditing e = .error (.failed (.conflict ⟨.finish, .expanded⟩)) e := by
  rw [finishEditing_eq]
  cases heditor : e.editor with
  | expanded draft => rfl
  | idle | selected | inline draft =>
    rw [heditor] at h
    cases h

theorem Awaits.at_rest (h : e.Awaits) : e.editor.phase = .selected ∧ e.editor.draft? = none ∧
    e.cursor.selection = none ∧ ∀ p, e.saves.inFlight p = false := by
  obtain ⟨before, store, rfl⟩ := h
  refine ⟨rfl, rfl, rfl, fun p => ?_⟩
  simp [awaitingShape, Saves.inFlight, Saves.clear]

theorem orderly_of_idle_of_stale (service : Service σ)
    (hidle : e.editor.phase = .idle → e.cursor.selection = none)
    (hstale : e.stale = true → e.Awaits) : e.Orderly service where
  draft := e.editor.aligned
  idle := hidle
  stale h := (hstale h).at_rest
  expands c hexpanded :=
    (follows_call service e c).imp_left fun hfollows => hfollows.turns.expanded hexpanded
  commitDraft h := by rw [Engine.commitDraft, bind_apply, finishEditing_of_expanded h]
  cancelEdit h := by rw [Engine.cancelEdit, bind_apply, finishEditing_of_expanded h]

/-- Nothing is selected behind an idle editor, and no engine is stale without waiting. -/
theorem idle_and_stale_session (service : Service σ) (hstart : Started e) (calls : List (Call σ)) :
    ((session service e calls).editor.phase = .idle →
        (session service e calls).cursor.selection = none) ∧
      ((session service e calls).stale = true → (session service e calls).Awaits) := by
  induction calls using List.reverseRecOn with
  | nil =>
    obtain ⟨-, hselection, hfresh⟩ := hstart.idle
    exact ⟨fun _ => hselection, fun hstale => nomatch hfresh.symm.trans hstale⟩
  | append_singleton calls c ih =>
    obtain ⟨hidle, hstale⟩ := ih
    rw [session_concat]
    refine ⟨fun h => ?_, awaits_of_stale_call service hstale c⟩
    rcases follows_call service (session service e calls) c with hfollows | ⟨draft, -, heq⟩
    · exact hfollows.selection h (hidle (hfollows.turns.idle h))
    · rw [heq] at h
      cases h

/-- Whatever is done with an engine, and whatever the service answers, refuses or leaves unanswered:
    there is a draft if and only if an editor is open, nothing is selected while the editor is idle,
    a stale engine has no draft, no selection and no save under way, the expanded editor is entered
    from the inline one only, and closing it fails and changes nothing. -/
theorem orderly_session (service : Service σ) (hstart : Started e) (calls : List (Call σ)) :
    (session service e calls).Orderly service := by
  obtain ⟨hidle, hstale⟩ := idle_and_stale_session service hstart calls
  exact orderly_of_idle_of_stale service hidle hstale

/-- An editor that is expanded and left open. -/
theorem orderly_session_expanded :
    let e := session Document.service (opened (.ofSize 2 2) (.ofSize 2 2) {})
      [.perform (.interact (.select ⟨1, 0⟩ false)), .perform (.interact (.key .f2)),
        .perform (.interact (.key .f2)), .perform (.interact (.updateDraft "x")),
        .perform (.interact (.commitDraft))]
    e.editor = .expanded ⟨⟨1, 0⟩, "", "x"⟩ ∧ e.Orderly Document.service := by
  intro e
  exact ⟨by decide +kernel, orderly_session Document.service (.opened _ _ _) _⟩

end Engine

end TableGrid
