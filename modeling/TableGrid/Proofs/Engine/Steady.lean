import TableGrid.Proofs.Cursor.Selection
import TableGrid.Proofs.Engine.Built

/-!
# Cursor and editor of an engine

Cursor and editor know nothing of each other.  An engine is steady if its cursor rests on the grid
and, where that is asked for, the cell being edited is the active one.  Most operations write
contents and close the editor at most (`Engine.Undisturbed`), and keep both in any case; these
lemmas go through the others.  Only where the grid is built anew can the cell being edited be left
behind.

## Key results

- `undisturbed_commitDraft`: closing the editor saves the draft, or leaves the editor open on it
- `steady_interact`: what users do with cells keeps an engine steady
- `steady_rebuilt`: a rebuild makes the cursor rest on the new grid
- `steady_perform`: an operation
-/

namespace TableGrid

namespace Editor

variable {e e' : Editor}

theorem editing?_of_select (h : e.select = .ok e') : e'.editing? = none := by
  cases e <;> cases h <;> rfl

theorem editing?_of_openInline {draft : Draft} (h : e.openInline draft = .ok e') :
    e'.editing? = some draft.coord := by
  cases e <;> cases h <;> rfl

theorem editing?_of_expand (h : e.expand = .ok e') : e'.editing? = e.editing? := by
  cases e <;> cases h
  rfl

theorem editing?_of_collapse (h : e.collapse = .ok e') : e'.editing? = e.editing? := by
  cases e <;> cases h
  rfl

theorem editing?_eq_none (hinline : e.phase ≠ .inline) (hexpanded : e.phase ≠ .expanded) :
    e.editing? = none := by
  cases e with
  | idle => rfl
  | selected => rfl
  | inline draft => exact absurd rfl hinline
  | expanded draft => exact absurd rfl hexpanded

theorem editing?_modifyDraft {f : Draft → Draft} (hf : ∀ draft, (f draft).coord = draft.coord)
    (e : Editor) : (e.modifyDraft f).editing? = e.editing? := by
  rw [editing?, modifyDraft, Option.map_map]
  exact congrArg (e.draft?.map ·) (funext hf)

end Editor

/-- Whether an operation builds the grid anew from another table or overlay while an editor may be
    open. -/
def Operation.regrids : Operation → Bool
  | .changeAttributes _ | .replaceTable _ => true
  | _ => false

namespace Engine

variable {σ : Type} {service : Service σ} {e e' e'' : Engine σ} {attended : Prop} {p owner : Coord}

/-! ## Operations that write contents -/

/-- Whether the cells and the cursor are where they were, and no editor has been opened. -/
structure Undisturbed (e e' : Engine σ) : Prop where
  shape : e'.grid.map Cell.shape = e.grid.map Cell.shape
  cursor : e'.cursor = e.cursor
  editing : ∀ p, e'.editor.editing? = some p → e.editor.editing? = some p

theorem Undisturbed.refl (e : Engine σ) : e.Undisturbed e := ⟨rfl, rfl, fun _ => id⟩

theorem Undisturbed.trans (h : e.Undisturbed e') (h' : e'.Undisturbed e'') : e.Undisturbed e'' :=
  ⟨h'.shape.trans h.shape, h'.cursor.trans h.cursor, fun p hp => h.editing p (h'.editing p hp)⟩

theorem undisturbed_of_writes (hwrites : e.sheet.Writes e'.sheet) (hcursor : e'.cursor = e.cursor)
    (heditor : e'.editor = e.editor) : e.Undisturbed e' := by
  refine ⟨hwrites.map_shape, hcursor, ?_⟩
  rw [heditor]
  exact fun _ => id

/-- An answer touches neither cursor nor editor. -/
theorem undisturbed_finished (e : Engine σ) (t : Ticket) (persisted : Content) :
    e.Undisturbed (e.finished t persisted) ∧ (e.finished t persisted).editor = e.editor := by
  have hsame : (e.finished t persisted).cursor = e.cursor ∧
      (e.finished t persisted).editor = e.editor := by
    rw [finished]
    split <;> exact ⟨rfl, rfl⟩
  exact ⟨undisturbed_of_writes (writes_finished e t persisted) hsame.1 hsame.2, hsame.2⟩

/-- A save touches neither cursor nor editor. -/
theorem undisturbed_save (service : Service σ) (e : Engine σ) (p : Coord) (c : Content) :
    e.Undisturbed (after (save service p c) e) ∧
      (after (save service p c) e).editor = e.editor := by
  rcases after_save_cases service e p c with
    ⟨-, heq⟩ | ⟨hcan, store, ⟨persisted, -, heq⟩ | ⟨cause, -, heq⟩ | ⟨-, heq⟩⟩
  · rw [heq]
    exact ⟨.refl e, rfl⟩
  · have hbegun : e.Undisturbed ({ e.begun p c with store } : Engine σ) :=
      undisturbed_of_writes (writes_begun c hcan) rfl rfl
    obtain ⟨hfinished, heditor⟩ :=
      undisturbed_finished ({ e.begun p c with store } : Engine σ) ⟨p, e.saves.issued + 1, c⟩
        persisted
    rw [heq]
    exact ⟨hbegun.trans hfinished, heditor⟩
  · rw [heq]
    exact ⟨⟨rfl, rfl, fun _ => id⟩, rfl⟩
  · rw [heq]
    exact ⟨undisturbed_of_writes (writes_begun c hcan) rfl rfl, rfl⟩

theorem undisturbed_edit {step : Editor → Except PhaseConflict Editor}
    (h : ∀ editor, step e.editor = .ok editor →
      ∀ p, editor.editing? = some p → e.editor.editing? = some p) :
    Ends (edit step) e (fun _ => e.Undisturbed) e.Undisturbed :=
  ends_edit (fun editor heq => ⟨rfl, rfl, h editor heq⟩) (.refl e)

theorem undisturbed_edit_select :
    Ends (edit Editor.select) e (fun _ => e.Undisturbed) e.Undisturbed := by
  refine undisturbed_edit fun editor heq p hp => ?_
  rw [Editor.editing?_of_select heq] at hp
  cases hp

theorem undisturbed_expandEditor (e : Engine σ) :
    Ends expandEditor e (fun _ => e.Undisturbed) e.Undisturbed := by
  refine undisturbed_edit fun editor heq p hp => ?_
  rwa [Editor.editing?_of_expand heq] at hp

theorem ends_finishEditing (e : Engine σ) :
    Ends finishEditing e
      (fun draft? e' => e.Undisturbed e' ∧ e'.editor.editing? = none ∧
        ∀ draft, draft? = some draft → e.editor.editing? = some draft.coord)
      e.Undisturbed := by
  unfold Ends
  rw [finishEditing_eq]
  cases heditor : e.editor with
  | idle => exact ⟨⟨rfl, rfl, fun _ h => nomatch h⟩, rfl, fun _ h => nomatch h⟩
  | selected => exact ⟨⟨rfl, rfl, fun _ h => nomatch h⟩, rfl, fun _ h => nomatch h⟩
  | inline draft =>
    refine ⟨⟨rfl, rfl, fun _ h => nomatch h⟩, rfl, ?_⟩
    intro _ heq
    rw [← Option.some.inj heq]
    rfl
  | expanded draft => exact .refl e

theorem undisturbed_cancelEdit (e : Engine σ) :
    Ends cancelEdit e (fun _ => e.Undisturbed) e.Undisturbed :=
  (ends_finishEditing e).bind fun _ _ h => h.1

/-- Closing the editor saves the draft, or leaves the editor open on it. -/
theorem undisturbed_commitDraft (service : Service σ) (e : Engine σ) :
    Ends (commitDraft service) e (fun _ e' => e.Undisturbed e' ∧ e'.editor.editing? = none)
      e.Undisturbed := by
  refine (ends_finishEditing e).bind ?_
  rintro draft? e₁ ⟨hclosed, hediting, hdraft⟩
  cases draft? with
  | none => exact ⟨hclosed, hediting⟩
  | some draft =>
    simp only
    split
    · exact ⟨hclosed, hediting⟩
    · -- The save does not see the editor; when it fails the editor opens again where it was.
      have hsave := undisturbed_save service e₁ draft.coord (.text draft.text)
      have hends : Ends (save service draft.coord (.text draft.text)) e₁
          (fun _ e₂ => e₁.Undisturbed e₂ ∧ e₂.editor = e₁.editor)
          (fun e₂ => e₁.Undisturbed e₂ ∧ e₂.editor = e₁.editor) := ends_iff_after.2 hsave
      refine ends_bind (ends_attempt (hends.mono ?_ ?_))
      · rintro outcome e₂ ⟨hsaved, hsame⟩
        exact ⟨hclosed.trans hsaved, by rw [hsame, hediting]⟩
      · rintro e₂ ⟨hsaved, -⟩
        have hfailed := hclosed.trans hsaved
        refine ⟨fun error => ends_bind (ends_edit (fun editor hopen => ?_) hfailed), hfailed⟩
        refine ⟨hfailed.shape, hfailed.cursor, fun p hp => ?_⟩
        rw [Editor.editing?_of_openInline hopen] at hp
        rw [hdraft draft rfl, hp]

theorem undisturbed_updateDraft (text : String) (e : Engine σ) :
    Ends (updateDraft text) e (fun _ => e.Undisturbed) e.Undisturbed := by
  refine ends_get_bind ?_
  simp only
  split
  · exact .refl e
  · refine ⟨rfl, rfl, fun p hp => ?_⟩
    rwa [Editor.editing?_modifyDraft (fun _ => by rfl)] at hp

theorem undisturbed_commitEdit (service : Service σ) (text : String) (e : Engine σ) :
    Ends (commitEdit service text) e (fun _ => e.Undisturbed) e.Undisturbed := by
  refine (undisturbed_updateDraft text e).bind fun _ e₁ hupdate => ?_
  exact (undisturbed_commitDraft service e₁).mono (fun _ _ h => hupdate.trans h.1)
    fun _ h => hupdate.trans h

/-- Leaving the expanded editor with a text saves the text and stays on the cell. -/
theorem undisturbed_finishExpanded (service : Service σ) (text? : Option String) (e : Engine σ) :
    Ends (finishExpanded service text?) e (fun _ => e.Undisturbed) e.Undisturbed := by
  refine (undisturbed_edit fun editor heq p hp => ?_).bind fun _ e₁ hcollapse => ?_
  · rwa [Editor.editing?_of_collapse heq] at hp
  · cases text? with
    | none => exact hcollapse
    | some text =>
      refine ends_get_bind (ends_bind (ends_orFail (fun p _ => ?_) hcollapse))
      have hsave := hcollapse.trans (undisturbed_save service e₁ p (.text text)).1
      refine (ends_iff_after.2 hsave).bind fun _ e₂ hsaved => ?_
      refine ⟨hsaved.shape, hsaved.cursor, fun q hq => hsaved.editing q ?_⟩
      rwa [Editor.editing?_modifyDraft (fun _ => by rfl)] at hq

/-! ## Steady engines -/

/-- Whether the cursor rests on a settled grid and, where editors are attended, the cell being
    edited is the active one. -/
structure Steady (attended : Prop) (e : Engine σ) : Prop where
  settled : e.grid.Settled
  rests : e.cursor.Rests e.grid
  attends : attended → ∀ p, e.editor.editing? = some p → e.active? = some p

theorem Steady.of_undisturbed (h : e.Steady attended) (he : e.Undisturbed e') :
    e'.Steady attended where
  settled := h.settled.congr he.shape.symm
  rests := by
    rw [he.cursor]
    exact h.rests.congr he.shape.symm
  attends hattended p hp := by
    rw [active?, he.cursor]
    exact h.attends hattended p (he.editing p hp)

/-- An operation that leaves cells and cursor where they are keeps an engine steady. -/
theorem Steady.ends_of_undisturbed {α : Type} {action : Action σ α} (h : e.Steady attended)
    (he : Ends action e (fun _ => e.Undisturbed) e.Undisturbed) :
    Ends action e (fun _ => Steady attended) (Steady attended) :=
  he.mono (fun _ _ => h.of_undisturbed) fun _ => h.of_undisturbed

/-- Closing the editor leaves the cursor free to move on. -/
theorem Steady.commitDraft (h : e.Steady attended) (service : Service σ) :
    Ends (commitDraft service) e (fun _ e' => e.Undisturbed e' ∧ e'.editor.editing? = none)
      (Steady attended) :=
  (undisturbed_commitDraft service e).mono (fun _ _ => id) fun _ => h.of_undisturbed

/-- The cursor may go to any owner, or to the one being edited. -/
theorem Steady.of_cursor {cursor : Cursor} (h : e.Steady attended)
    (hrests : cursor.Rests e.grid)
    (hediting : ∀ p, e.editor.editing? = some p → cursor.active? = some p) :
    ({ e with cursor } : Engine σ).Steady attended :=
  ⟨h.settled, hrests, fun _ => hediting⟩

/-! ## Selecting and moving -/

theorem Steady.select (h : e.Steady attended) (p : Coord) (extend : Bool) :
    Ends (select p extend) e (fun _ => Steady attended) (Steady attended) := by
  refine ends_bind (ends_ensureClosed (fun hclosed => ?_) h)
  refine ends_bind (ends_ensureFresh (ends_get_bind ?_) h)
  refine ends_bind (ends_ofExcept (fun _ _ => ?_) h)
  refine ends_bind (ends_orFail ?_ h)
  rintro ⟨owner, cursor⟩ hclick
  have hclicked : ({ e with cursor } : Engine σ).Steady attended :=
    h.of_cursor (h.rests.click h.settled hclick).2.2 fun p hp => nomatch hclosed.symm.trans hp
  exact (hclicked.ends_of_undisturbed undisturbed_edit_select).bind fun _ _ => id

/-- Without an editor, a step leads to an active cell. -/
theorem Steady.step (h : e.Steady attended) (hclosed : e.editor.editing? = none)
    (direction : Direction) (extend : Bool) :
    Ends (step direction extend) e
      (fun target e' => e'.Steady attended ∧ e'.active? = some target) (Steady attended) := by
  refine ends_get_bind ?_
  have hmoved : ({ e with cursor := (e.cursor.move e.grid direction extend).2 } : Engine σ).Steady
      attended :=
    h.of_cursor (h.rests.move h.settled direction extend) fun p hp =>
      nomatch hclosed.symm.trans hp
  exact ends_orFail (fun target htarget => ⟨hmoved, Cursor.active?_move htarget⟩) hmoved

theorem Steady.move (h : e.Steady attended) (direction : Direction) (extend : Bool) :
    Ends (move direction extend) e (fun _ => Steady attended) (Steady attended) := by
  refine ends_bind (ends_ensureClosed (fun hclosed => ?_) h)
  refine ends_bind (ends_ensureFresh ?_ h)
  refine (h.step hclosed direction extend).bind fun target e₁ ⟨hmoved, _⟩ => ?_
  exact (hmoved.ends_of_undisturbed undisturbed_edit_select).bind fun _ _ => id

/-! ## Opening the editor -/

/-- The editor may open on the active cell. -/
theorem Steady.openEditor (h : e.Steady attended) (service : Service σ)
    (hactive : e.active? = some p) :
    Ends (openEditor service p) e (fun _ => Steady attended) (Steady attended) := by
  have hasked : ∀ store, ({ e with store } : Engine σ).Steady attended := fun _ =>
    ⟨h.settled, h.rests, h.attends⟩
  refine ends_bind (ends_ask (fun answer => ?_) (hasked _))
  cases answer with
  | error cause => exact hasked _
  | ok content =>
    refine ends_edit (fun editor hopen => ⟨h.settled, h.rests, fun _ q hq => ?_⟩) (hasked _)
    rw [Editor.editing?_of_openInline hopen, Option.some.injEq] at hq
    rw [← hq]
    exact hactive

theorem Steady.openActive (h : e.Steady attended) (service : Service σ) :
    Ends (openActive service) e (fun _ => Steady attended) (Steady attended) := by
  refine ends_get_bind ?_
  cases hactive : e.active? with
  | some p => exact h.openEditor service hactive
  | none => exact h

/-! ## Clicks -/

/-- A click goes to the owner, unless it would leave the cell being edited. -/
theorem Steady.clickAt (h : e.Steady attended) (howner : e.grid.owner? p = some owner)
    (hediting : ∀ q, e.editor.editing? = some q → q = owner) :
    Ends (clickAt p) e (fun _ e' => e'.Steady attended ∧ e'.active? = some owner)
      (Steady attended) := by
  have hclick : e.cursor.click? e.grid p false =
      some (owner, { e.cursor with lock := none }.place owner false) := by
    rw [Cursor.click?, howner]
    rfl
  obtain ⟨-, hactive, hrests⟩ := h.rests.click h.settled hclick
  unfold Ends Engine.clickAt
  simp only [modify_apply, hclick]
  refine ⟨h.of_cursor hrests fun q hq => ?_, hactive⟩
  rw [hediting q hq, hactive]

theorem Steady.click (h : e.Steady attended) (service : Service σ)
    (howner : e.grid.owner? p = some owner) (hphase : e.editor.phase ≠ .expanded) :
    Ends (click service e p owner) e (fun _ => Steady attended) (Steady attended) := by
  unfold Engine.click
  split
  · rename_i hediting
    -- A click on the cell being edited makes it active.
    refine (h.clickAt howner fun q hq => ?_).mono (fun _ _ => And.left) fun _ => id
    rw [hediting, Option.some.injEq] at hq
    exact hq.symm
  · split
    · refine (h.commitDraft service).bind fun _ e₁ ⟨hsaved, hclosed⟩ => ?_
      -- The owner is still the one from before the draft was saved.
      have howner₁ : e₁.grid.owner? p = some owner := by
        rw [Grid.owner?_congr hsaved.shape, howner]
      have hclick := (h.of_undisturbed hsaved).clickAt howner₁ fun q hq =>
        nomatch hclosed.symm.trans hq
      exact hclick.bind fun _ e₂ ⟨hclicked, hactive⟩ => hclicked.openEditor service hactive
    · rename_i hopen
      rw [not_or] at hopen
      have hclosed := Editor.editing?_eq_none hopen.1 hphase
      have hclick := h.clickAt howner fun q hq => nomatch hclosed.symm.trans hq
      exact hclick.bind fun _ e₁ ⟨hclicked, _⟩ =>
        hclicked.ends_of_undisturbed undisturbed_edit_select

theorem Steady.activate (h : e.Steady attended) (service : Service σ) (p : Coord) :
    Ends (activate service p) e (fun _ => Steady attended) (Steady attended) := by
  rcases activate_eq service e p with ⟨owner, hphase, -, howner, heq⟩ | ⟨-, heq⟩
  · unfold Ends
    rw [heq]
    exact h.click service howner hphase
  · rw [ends_iff_after, heq]
    exact h

/-! ## Keys -/

theorem Steady.travel (h : e.Steady attended) (service : Service σ) (direction : Direction)
    (extend : Bool) :
    Ends (travel service direction extend) e (fun _ => Steady attended) (Steady attended) := by
  refine ends_get_bind ?_
  split
  · exact h
  · split
    · exact (h.move direction extend).bind fun _ _ => id
    · refine (h.commitDraft service).bind fun _ e₁ ⟨hsaved, hclosed⟩ => ?_
      have h₁ := h.of_undisturbed hsaved
      refine ends_bind (ends_ensureFresh ?_ h₁)
      exact (h₁.step hclosed direction false).bind fun target e₂ ⟨hmoved, hactive⟩ =>
        hmoved.openEditor service hactive

theorem Steady.handleKey (h : e.Steady attended) (service : Service σ) (key : Key) :
    Ends (handleKey service key) e (fun _ => Steady attended) (Steady attended) :=
  ends_handleKey key h (h.travel service) (h.openActive service)
    (h.ends_of_undisturbed (undisturbed_cancelEdit e))
    fun _ _ => h.ends_of_undisturbed (undisturbed_expandEditor e)

/-- What users do with cells keeps an engine steady. -/
theorem steady_interact (service : Service σ) (h : e.Steady attended) (i : Interaction) :
    (e.interact service i).Steady attended := by
  cases i with
  | select p extend => exact ends_iff_after.1 (h.select p extend)
  | move direction extend => exact ends_iff_after.1 (h.move direction extend)
  | activate p => exact ends_iff_after.1 (h.activate service p)
  | key key => exact ends_iff_after.1 (h.handleKey service key)
  | updateDraft text =>
    exact h.of_undisturbed (ends_iff_after.1 (undisturbed_updateDraft text e))
  | commitEdit text =>
    exact h.of_undisturbed (ends_iff_after.1 (undisturbed_commitEdit service text e))
  | commitDraft =>
    have hcommit := (undisturbed_commitDraft service e).mono (fun _ _ => And.left) fun _ => id
    exact h.of_undisturbed (ends_iff_after.1 hcommit)
  | cancelEdit => exact h.of_undisturbed (ends_iff_after.1 (undisturbed_cancelEdit e))
  | expandEditor => exact h.of_undisturbed (ends_iff_after.1 (undisturbed_expandEditor e))
  | finishExpanded text? =>
    exact h.of_undisturbed (ends_iff_after.1 (undisturbed_finishExpanded service text? e))
  | save p c => exact h.of_undisturbed (undisturbed_save service e p c).1

/-! ## Operations -/

/-- A rebuild makes the cursor rest on the new grid, and leaves open where the editor is. -/
theorem steady_rebuilt (e : Engine σ)
    (hattends : attended → ∀ p, e.editor.editing? = some p → (rebuilt e).active? = some p) :
    (rebuilt e).Steady attended where
  settled := Grid.settled_resolve _
  rests := Cursor.rests_revalidate _ (Grid.settled_resolve _)
  attends := hattends

/-- Where the grid has the shape of a rebuild already, the cursor stays where it is. -/
theorem Steady.rebuilt_of_hasShape (h : e.Steady attended) (hshape : e.HasShape) :
    (rebuilt e).Steady attended := by
  refine steady_rebuilt e fun hattended p hp => ?_
  have hselection := (h.rests.congr hshape).selection_revalidate
  rw [← h.attends hattended p hp]
  exact congrArg (Option.map Selection.active) hselection

/-- A change of shape gives up the selection and the editor, even if it fails. -/
theorem Steady.reshape (h : e.Steady attended) (service : Service σ) (r : Reshape) :
    (after (reshape service r) e).Steady attended := by
  obtain ⟨store, ⟨table, -, heq⟩ | ⟨cause, -, heq⟩ | ⟨-, heq⟩⟩ := reshape_cases service r e
  · rw [heq]
    exact steady_rebuilt _ fun _ _ hp => nomatch hp
  · rw [heq]
    exact ⟨h.settled, Cursor.rests_cleared _, fun _ _ hp => nomatch hp⟩
  · rw [heq]
    exact ⟨h.settled, Cursor.rests_cleared _, fun _ _ hp => nomatch hp⟩

/-- An operation keeps an engine steady.  Where editors are attended this leaves out the operations
    that build the grid anew from something else. -/
theorem steady_perform (service : Service σ) (h : e.Steady attended) (hshape : e.HasShape)
    {op : Operation} (hop : attended → op.regrids = false) :
    (perform service e op).Steady attended := by
  cases op with
  | interact i => exact steady_interact service h i
  | beginSave p c =>
    rw [perform, after_beginSave]
    split
    · rename_i hcan
      exact h.of_undisturbed (undisturbed_of_writes (writes_begun c hcan) rfl rfl)
    · exact h
  | finishSave ticket persisted =>
    rw [perform, after_finishSave]
    exact h.of_undisturbed (undisturbed_finished e ticket persisted).1
  | abandonSave ticket => exact h.of_undisturbed ⟨rfl, rfl, fun _ => id⟩
  | changeShape request =>
    rw [perform, changeShape_eq]
    split
    · exact h.reshape service _
    · exact h
  | changeAttributes request =>
    rw [perform]
    rcases changeAttributes_cases e request with heq | ⟨selection, -, heq⟩
    · rw [heq]
      exact h
    · rw [heq]
      exact steady_rebuilt _ fun hattended => Bool.noConfusion (hop hattended)
  | rebuild => exact h.rebuilt_of_hasShape hshape
  | replaceTable table => exact steady_rebuilt _ fun hattended => Bool.noConfusion (hop hattended)

end Engine

end TableGrid
