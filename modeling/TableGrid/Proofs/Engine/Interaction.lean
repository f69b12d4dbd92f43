import TableGrid.Engine.Edit
import TableGrid.Proofs.Engine.Save

/-!
# What users do with cells

Clicks, keys and the operations of the editor touch the sheet of an engine in one way only: they
may save a content.  `Interaction.saving?` says when they do, from the editor and the cursor, and
`sheet_interact` that an interaction leaves the sheet that this save leaves.

## Key results

- `sheet_commitDraft`: closing the editor saves the draft if it was changed
- `sheet_interact`: an interaction does to the sheet what its save does
-/

namespace TableGrid

/-- What closing the editor saves: the draft of the inline editor, if it was changed. -/
def Editor.commit? : Editor → Option (Coord × Content)
  | .inline draft => if draft.isModified then some (draft.coord, .text draft.text) else none
  | .idle | .selected | .expanded _ => none

/-- What a user does with the cells of a table. -/
inductive Interaction where
  | select (p : Coord) (extend : Bool)
  | move (direction : Direction) (extend : Bool)
  | activate (p : Coord)
  | key (key : Key)
  | updateDraft (text : String)
  | commitEdit (text : String)
  | commitDraft
  | cancelEdit
  | expandEditor
  | finishExpanded (text? : Option String)
  | save (p : Coord) (c : Content)

namespace Engine

variable {σ : Type}

/-- Carry out an interaction, whichever way it ends. -/
def interact (service : Service σ) (e : Engine σ) : Interaction → Engine σ
  | .select p extend => after (select p extend) e
  | .move direction extend => after (move direction extend) e
  | .activate p => after (activate service p) e
  | .key key => after (handleKey service key) e
  | .updateDraft text => after (updateDraft text) e
  | .commitEdit text => after (commitEdit service text) e
  | .commitDraft => after (commitDraft service) e
  | .cancelEdit => after cancelEdit e
  | .expandEditor => after expandEditor e
  | .finishExpanded text? => after (finishExpanded service text?) e
  | .save p c => after (save service p c) e

/-- Save a content, if there is one to save. -/
def saveAny (service : Service σ) (e : Engine σ) : Option (Coord × Content) → Engine σ
  | some (p, c) => after (save service p c) e
  | none => e

end Engine

/-- What an interaction wants to save.  Nothing comes of it if the save cannot begin. -/
def Interaction.saving? {σ : Type} (e : Engine σ) : Interaction → Option (Coord × Content)
  | .select _ _ | .move _ _ | .updateDraft _ | .cancelEdit | .expandEditor => none
  | .activate p =>
    if e.grid.contains p ∧ e.editor.editing? ≠ e.grid.owner? p then e.editor.commit? else none
  | .key .escape | .key .f2 => none
  | .key (.enter _) | .key (.tab _) | .key (.arrow _ _) =>
    if e.active?.isSome then e.editor.commit? else none
  | .commitEdit text => (e.editor.modifyDraft ({ · with text })).commit?
  | .commitDraft => e.editor.commit?
  | .finishExpanded text? =>
    match e.editor, text? with
    | .expanded draft, some text => some (draft.coord, .text text)
    | _, _ => none
  | .save p c => some (p, c)

namespace Engine

variable {σ : Type} {service : Service σ} {e : Engine σ}

/-- While the grid is stale a save leaves everything as it is. -/
theorem after_save_of_stale (p : Coord) (c : Content) (h : e.stale = true) :
    after (save service p c) e = e := by
  rcases after_save_cases service e p c with ⟨-, heq⟩ | ⟨hcan, -⟩
  · exact heq
  · rw [canSave_iff, h] at hcan
    cases hcan.1

theorem accepts_congr {e e' : Engine σ} (h : e.sheet = e'.sheet) (t : Ticket) :
    e.accepts t = e'.accepts t := by
  have hsaves : e.saves = e'.saves := congrArg Sheet.saves h
  have hgrid : e.grid = e'.grid := congrArg Sheet.grid h
  have hstale : e.stale = e'.stale := congrArg Sheet.stale h
  rw [accepts, accepts, shows, shows, hsaves, hgrid, hstale]

theorem sheet_finished (e : Engine σ) (t : Ticket) (persisted : Content) :
    (e.finished t persisted).sheet =
      if e.accepts t && !persisted.agrees t.content then
        { e.sheet with
          saves := e.sheet.saves.complete t
          grid := e.sheet.grid.setContent t.coord persisted
          overlay := e.sheet.overlay.setContent t.coord persisted }
      else { e.sheet with saves := e.sheet.saves.complete t } := by
  unfold finished
  split <;> rfl

/-- What an answer does to the sheet depends on the sheet alone. -/
theorem sheet_finished_congr {e e' : Engine σ} (h : e.sheet = e'.sheet) (t : Ticket)
    (persisted : Content) : (e.finished t persisted).sheet = (e'.finished t persisted).sheet := by
  rw [sheet_finished, sheet_finished, accepts_congr h, h]

/-- A save does not look at the editor. -/
theorem sheet_save_editor (service : Service σ) (e : Engine σ) (editor : Editor) (p : Coord)
    (c : Content) :
    (after (save service p c) { e with editor }).sheet = (after (save service p c) e).sheet := by
  cases h : e.canSave p with
  | false =>
    obtain ⟨error, herror⟩ := save_of_not_canSave service c h
    have h' : ({ e with editor } : Engine σ).canSave p = false := h
    obtain ⟨error', herror'⟩ := save_of_not_canSave service c h'
    rw [after_eq_of_error herror, after_eq_of_error herror']
    rfl
  | true =>
    have h' : ({ e with editor } : Engine σ).canSave p = true := h
    unfold after
    rw [save_of_canSave service c h, save_of_canSave service c h']
    cases service.save p c e.store with
    | mk reply store =>
      cases reply with
      | answered persisted =>
        simp only [finishSave_eq]
        apply sheet_finished_congr
        rfl
      | failed cause => rfl
      | unanswered => rfl

theorem sheet_saveAny_editor (service : Service σ) (e : Engine σ) (editor : Editor)
    (save? : Option (Coord × Content)) :
    (({ e with editor } : Engine σ).saveAny service save?).sheet =
      (e.saveAny service save?).sheet := by
  cases save? with
  | none => rfl
  | some save => exact sheet_save_editor service e editor save.1 save.2

/-! ## Drafts -/

theorem finishEditing_eq (e : Engine σ) :
    finishEditing e =
      match e.editor.finish with
      | .ok (draft, editor) => .ok draft { e with editor }
      | .error cause => .error (.failed (.conflict cause)) e := by
  simp only [finishEditing, bind_apply, get_apply]
  cases e.editor.finish <;> rfl

theorem phase_of_inline {draft : Draft} (h : e.editor = .inline draft) :
    e.editor.phase = .inline := by
  rw [h]
  rfl

theorem finishEditing_of_inline {draft : Draft} (h : e.editor = .inline draft) :
    finishEditing e = .ok (some draft) { e with editor := .selected } := by
  rw [finishEditing_eq, h]
  rfl

theorem sheet_attempt {α : Type} (action : Action σ α) (e : Engine σ) :
    (after (attempt action) e).sheet = (after action e).sheet := by
  unfold after attempt
  cases action e with
  | ok value e' => rfl
  | error cause e' => cases cause <;> rfl

/-- Closing the editor saves the draft if it was changed. -/
theorem sheet_commitDraft (service : Service σ) (e : Engine σ) :
    (after (commitDraft service) e).sheet = (e.saveAny service e.editor.commit?).sheet := by
  cases heditor : e.editor with
  | idle | selected | expanded draft =>
    rw [commitDraft, after_bind, finishEditing_eq, heditor]
    rfl
  | inline draft =>
    have hcommit : (Editor.inline draft).commit? =
      if draft.isModified then some (draft.coord, .text draft.text) else none := rfl
    rw [commitDraft, after_bind, finishEditing_of_inline heditor, hcommit]
    simp only
    cases hmod : draft.isModified with
    | false => rfl
    | true =>
      simp only [Bool.not_true, Bool.false_eq_true, if_false, if_true]
      -- A save that fails opens the editor again, which the sheet does not see.
      rw [view_after_bind sheet, sheet_attempt]
      · exact sheet_save_editor service e _ _ _
      · rintro (error | outcome)
        · exact (Keeps.edit _).bind fun _ => Keeps.fail _
        · exact Keeps.pure _

/-- Before something that keeps the sheet, the same. -/
theorem sheet_commitDraft_bind {α : Type} {next : Option SaveOutcome → Action σ α}
    (h : ∀ outcome, Keeps sheet (next outcome)) (service : Service σ) (e : Engine σ) :
    (after (commitDraft service >>= next) e).sheet =
      (e.saveAny service e.editor.commit?).sheet := by
  rw [view_after_bind sheet h, sheet_commitDraft]

theorem Keeps.openEditor (service : Service σ) (p : Coord) :
    Keeps sheet (openEditor service p) := by
  refine (Keeps.ask _).bind ?_
  rintro (cause | content)
  · exact Keeps.fail _
  · exact Keeps.edit _

theorem Keeps.openActive (service : Service σ) : Keeps sheet (openActive service) := by
  refine Keeps.get.bind fun e => ?_
  cases e.active? with
  | some p => exact Keeps.openEditor service p
  | none => exact Keeps.pure _

theorem Keeps.clickAt (p : Coord) : Keeps sheet (clickAt p : Action σ Unit) := by
  refine Keeps.modify fun e => ?_
  split <;> rfl

theorem Keeps.finishEditing : Keeps sheet (finishEditing : Action σ (Option Draft)) := by
  intro e
  unfold after
  rw [finishEditing_eq]
  cases e.editor.finish <;> rfl

theorem Keeps.updateDraft (text : String) : Keeps sheet (updateDraft text : Action σ Unit) := by
  refine Keeps.get.bind fun e => ?_
  simp only
  split
  · exact (Keeps.fail _).bind fun _ => Keeps.modify fun _ => rfl
  · exact Keeps.modify fun _ => rfl

/-! ## Operations of the editor -/

theorem sheet_commitEdit (service : Service σ) (e : Engine σ) (text : String) :
    (after (commitEdit service text) e).sheet =
      (e.saveAny service (e.editor.modifyDraft ({ · with text })).commit?).sheet := by
  -- With a draft, committing a text is committing the draft with that text.
  have hdraft : e.editor.draft?.isSome = true → (after (commitEdit service text) e).sheet =
      (after (commitDraft service)
        { e with editor := e.editor.modifyDraft ({ · with text }) }).sheet := by
    intro h
    obtain ⟨draft, hsome⟩ := Option.isSome_iff_exists.1 h
    have hupdate : updateDraft text e =
        .ok () { e with editor := e.editor.modifyDraft ({ · with text }) } := by
      simp only [updateDraft, bind_apply, get_apply, hsome, Option.isNone_some,
        Bool.false_eq_true, if_false]
      rfl
    rw [commitEdit, after_bind, hupdate]
  cases heditor : e.editor with
  | idle =>
    rw [commitEdit, after_bind]
    simp only [updateDraft, bind_apply, get_apply, heditor]
    rfl
  | selected =>
    rw [commitEdit, after_bind]
    simp only [updateDraft, bind_apply, get_apply, heditor]
    rfl
  | inline draft =>
    rw [hdraft (by rw [heditor]; rfl), sheet_commitDraft, heditor]
    exact sheet_saveAny_editor service e _ _
  | expanded draft =>
    rw [hdraft (by rw [heditor]; rfl), sheet_commitDraft, heditor]
    rfl

/-- Leaving the expanded editor with a text saves the text. -/
theorem sheet_finishExpanded (service : Service σ) (e : Engine σ) (text? : Option String) :
    (after (finishExpanded service text?) e).sheet =
      (e.saveAny service (Interaction.saving? e (.finishExpanded text?))).sheet := by
  unfold finishExpanded
  rw [after_bind, edit_eq]
  simp only [Interaction.saving?]
  cases heditor : e.editor with
  | idle => rfl
  | selected => rfl
  | inline draft => rfl
  | expanded draft =>
    cases text? with
    | none => rfl
    | some text =>
      show (after (save service draft.coord (.text text) >>= _)
        { e with editor := .inline draft }).sheet = _
      rw [view_after_bind sheet]
      · exact sheet_save_editor service e _ _ _
      · exact fun _ => Keeps.modify fun _ => rfl

/-! ## Clicks and keys -/

theorem commit?_of_phase {editor : Editor} (h : editor.phase ≠ .inline) :
    editor.commit? = none := by
  cases editor with
  | inline draft => exact absurd rfl h
  | idle => rfl
  | selected => rfl
  | expanded draft => rfl

theorem saveAny_of_stale (service : Service σ) (save? : Option (Coord × Content))
    (h : e.stale = true) : e.saveAny service save? = e := by
  cases save? with
  | none => rfl
  | some save => exact after_save_of_stale _ _ h

/-- What a click does when nothing is in its way. -/
def click (service : Service σ) (e : Engine σ) (p owner : Coord) : Action σ Unit :=
  if e.editor.editing? = some owner then clickAt p
  else if e.editor.phase = .inline ∨ e.active? = some owner then do
    let _ ← commitDraft service
    clickAt p
    openEditor service owner
  else do
    clickAt p
    edit Editor.select

theorem activate_eq (service : Service σ) (e : Engine σ) (p : Coord) :
    (∃ owner, e.editor.phase ≠ .expanded ∧ e.grid.contains p = true ∧
        e.grid.owner? p = some owner ∧ activate service p e = click service e p owner e) ∨
      ((e.editor.phase = .expanded ∨ e.stale = true ∨ e.grid.contains p = false) ∧
        after (activate service p) e = e) := by
  unfold after
  simp only [activate, bind_apply, get_apply]
  by_cases hphase : e.editor.phase = .expanded
  · exact .inr ⟨.inl hphase, by rw [if_pos hphase]; rfl⟩
  · rw [if_neg hphase]
    cases hstale : e.stale with
    | true =>
      refine .inr ⟨.inr (.inl rfl), ?_⟩
      simp only [bind_apply, ensureFresh_apply, hstale, if_true]
    | false =>
      cases hin : e.grid.contains p with
      | false =>
        refine .inr ⟨.inr (.inr rfl), ?_⟩
        cases hcell : e.grid.cell p with
        | ok cell =>
          rw [cell_eq_ok_iff, Grid.get?_eq_none_iff.2 hin] at hcell
          cases hcell
        | error cause =>
          simp only [bind_apply, ensureFresh_apply, hstale, Bool.false_eq_true, if_false,
            get_apply, hcell, ofExcept_error]
      | true =>
        have hcell := cell_eq_ok_iff.2 (Grid.get?_of_contains hin)
        obtain ⟨owner, howner⟩ : ∃ owner, e.grid.owner? p = some owner := by
          rw [Grid.owner?, if_pos hin]
          exact ⟨_, rfl⟩
        refine .inl ⟨owner, hphase, rfl, howner, ?_⟩
        simp only [bind_apply, ensureFresh_apply, hstale, Bool.false_eq_true, if_false, get_apply,
          hcell, ofExcept_ok, howner, orFail_some]
        rfl

/-- A click elsewhere closes the inline editor. -/
theorem sheet_activate (service : Service σ) (e : Engine σ) (p : Coord) :
    (after (activate service p) e).sheet =
      (e.saveAny service (Interaction.saving? e (.activate p))).sheet := by
  simp only [Interaction.saving?]
  rcases activate_eq service e p with ⟨owner, -, hin, howner, heq⟩ | ⟨hguard, heq⟩
  · have hafter : after (activate service p) e = after (click service e p owner) e := by
      rw [after, after, heq]
    rw [hafter, howner, click]
    -- A click on the cell being edited moves the cursor only.
    by_cases hediting : e.editor.editing? = some owner
    · rw [if_pos hediting, if_neg fun h => h.2 hediting]
      exact Keeps.clickAt p e
    · have hcommit : (if e.grid.contains p = true ∧ e.editor.editing? ≠ some owner then
          e.editor.commit? else none) = e.editor.commit? := if_pos ⟨hin, hediting⟩
      rw [if_neg hediting, hcommit]
      split
      · exact sheet_commitDraft_bind (fun _ => (Keeps.clickAt p).bind fun _ =>
          Keeps.openEditor service owner) service e
      · rename_i hphase
        rw [not_or] at hphase
        rw [commit?_of_phase hphase.1]
        exact ((Keeps.clickAt p).bind fun _ => Keeps.edit _) e
  · rw [heq]
    -- A click that is not taken saves nothing: there is no inline editor, or no save could begin.
    rcases hguard with hphase | hstale | hout
    · rw [commit?_of_phase (by rw [hphase]; decide), ite_self]
      rfl
    · rw [saveAny_of_stale service _ hstale]
    · have hskip : ¬(e.grid.contains p = true ∧ e.editor.editing? ≠ e.grid.owner? p) := by
        rw [hout]
        exact fun h => Bool.false_ne_true h.1
      rw [if_neg hskip]
      rfl

/-- From the inline editor the draft is saved before the cursor moves on. -/
theorem travel_of_inline (service : Service σ) {draft : Draft} (heditor : e.editor = .inline draft)
    (hactive : e.active?.isSome) (direction : Direction) (extend : Bool) :
    travel service direction extend e =
      (commitDraft service >>= fun _ => ensureFresh >>= fun _ =>
        step direction false >>= openEditor service) e := by
  have hsome : ¬e.active?.isNone = true := by
    rw [← Option.not_isSome, hactive]
    decide
  rw [travel, bind_apply, get_apply]
  simp only
  rw [if_neg hsome, if_neg (not_not_intro (phase_of_inline heditor))]

/-- A key that moves on closes the inline editor. -/
theorem sheet_travel (service : Service σ) (e : Engine σ) (direction : Direction)
    (extend : Bool) :
    (after (travel service direction extend) e).sheet =
      (e.saveAny service (if e.active?.isSome then e.editor.commit? else none)).sheet := by
  rw [travel, after_bind]
  simp only [get_apply]
  cases hactive : e.active? with
  | none => rfl
  | some p =>
    rw [if_neg (by simp), if_pos (show (some p).isSome = true from rfl)]
    -- From the inline editor the draft is saved first; otherwise the cursor just moves.
    by_cases hphase : e.editor.phase = .inline
    · rw [if_neg (not_not_intro hphase)]
      exact sheet_commitDraft_bind (fun _ => Keeps.ensureFresh.bind fun _ =>
        (Keeps.step _ _).bind fun _ => Keeps.openEditor service _) service e
    · rw [if_pos hphase, commit?_of_phase hphase]
      exact ((Keeps.move direction extend).bind fun _ => Keeps.pure _) e

/-- Working out where the enter key goes changes nothing and fails only on a stale grid. -/
theorem enterDirection_cases (e : Engine σ) :
    (∃ direction, enterDirection e = .ok direction e) ∨
      (e.stale = true ∧ ∃ error, enterDirection e = .error (.failed error) e) := by
  simp only [enterDirection, bind_apply, get_apply]
  cases e.editor.editing? with
  | none => exact .inl ⟨_, rfl⟩
  | some p =>
    simp only [freshGrid, bind_apply, ensureFresh_apply]
    cases hstale : e.stale with
    | true => exact .inr ⟨rfl, _, rfl⟩
    | false => exact .inl ⟨_, rfl⟩

/-- A key does nothing, moves on, opens the editor or closes it; only the F2 key expands it. -/
theorem ends_handleKey {P : Engine σ → Prop} (key : Key) (hstay : P e)
    (htravel : ∀ direction extend, Ends (travel service direction extend) e (fun _ => P) P)
    (hopen : Ends (openActive service) e (fun _ => P) P)
    (hcancel : Ends cancelEdit e (fun _ => P) P)
    (hexpand : key = .f2 → e.editor.phase = .inline → Ends expandEditor e (fun _ => P) P) :
    Ends (handleKey service key) e (fun _ => P) P := by
  refine ends_get_bind ?_
  simp only
  split
  · exact hstay
  · cases key with
    | enter shift =>
      cases shift with
      | true => exact htravel .up false
      | false =>
        simp only
        split
        · refine ends_bind ?_
          unfold Ends
          rcases enterDirection_cases e with ⟨direction, heq⟩ | ⟨-, cause, heq⟩
          · rw [heq]
            exact htravel direction false
          · rw [heq]
            exact hstay
        · exact hopen
    | tab shift => exact htravel _ false
    | escape => exact hcancel
    | f2 =>
      simp only
      split
      · rename_i hinline
        exact hexpand rfl (by simpa using hinline)
      · exact hopen
    | arrow direction extend => exact htravel direction _

theorem saving?_key_of_phase (key : Key) (h : e.editor.phase ≠ .inline) :
    Interaction.saving? e (.key key) = none := by
  cases key <;> simp only [Interaction.saving?, commit?_of_phase h, ite_self]

theorem sheet_handleKey (service : Service σ) (e : Engine σ) (key : Key) :
    (after (handleKey service key) e).sheet =
      (e.saveAny service (Interaction.saving? e (.key key))).sheet := by
  rw [handleKey, after_bind]
  simp only [get_apply]
  by_cases hexpanded : e.editor.phase = .expanded
  · rw [if_pos hexpanded, saving?_key_of_phase key (by rw [hexpanded]; decide)]
    rfl
  · rw [if_neg hexpanded]
    cases key with
    | enter shift =>
      cases shift with
      | true => exact sheet_travel service e _ _
      | false =>
        by_cases hinline : e.editor.phase = .inline
        · simp only [hinline, if_true]
          rw [after_bind]
          -- On a stale grid the direction is not found, but no save could begin either.
          rcases enterDirection_cases e with ⟨direction, heq⟩ | ⟨hstale, error, heq⟩
          · rw [heq]
            exact sheet_travel service e direction false
          · rw [heq, saveAny_of_stale service _ hstale]
        · simp only [hinline, if_false]
          rw [saving?_key_of_phase _ hinline]
          exact Keeps.openActive service e
    | tab shift => exact sheet_travel service e _ _
    | escape => exact (Keeps.finishEditing.bind fun _ => Keeps.pure _) e
    | f2 =>
      by_cases hinline : e.editor.phase = .inline
      · simp only [hinline, if_true]
        exact Keeps.edit _ e
      · simp only [hinline, if_false]
        exact Keeps.openActive service e
    | arrow direction extend => exact sheet_travel service e _ _

/-- An interaction does to the sheet what its save does. -/
theorem sheet_interact (service : Service σ) (e : Engine σ) (i : Interaction) :
    (e.interact service i).sheet = (e.saveAny service (i.saving? e)).sheet := by
  cases i with
  | select p extend => exact Keeps.select p extend e
  | move direction extend => exact Keeps.move direction extend e
  | activate p => exact sheet_activate service e p
  | key key => exact sheet_handleKey service e key
  | updateDraft text => exact Keeps.updateDraft text e
  | commitEdit text => exact sheet_commitEdit service e text
  | commitDraft => exact sheet_commitDraft service e
  | cancelEdit => exact (Keeps.finishEditing.bind fun _ => Keeps.pure _) e
  | expandEditor => exact Keeps.edit _ e
  | finishExpanded text? => exact sheet_finishExpanded service e text?
  | save p c => rfl

end Engine

end TableGrid
