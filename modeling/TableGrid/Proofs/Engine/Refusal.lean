import TableGrid.Proofs.Engine.Operation

/-!
# Saves that the service refuses

When the service refuses a save, whatever asked for it fails, and the engine is the one from before
but for the service and the saves under way: grid, overlay and table, cursor and editor are the
same, the draft included.  A save that cannot begin ends in the same way.

Leaving the expanded editor with a text is the exception.  The editor has been collapsed when the
save fails, and what is open then is the inline editor on the draft from before, without the text.

## Key results

- `failsInPlace_save`, `failsInPlace_commitDraft`: a save, and closing the editor on a changed draft
- `failsInPlace_handleKey`, `failsInPlace_activate`: keys and clicks that close the editor
- `failsInPlace_of_refuses`: all of them
- `finishExpanded_refused`: leaving the expanded editor, and which texts survive it
-/

namespace TableGrid

/-- Whether a service refuses to save a content. -/
def Service.Refuses {σ : Type} (service : Service σ) (store : σ) (p : Coord) (c : Content) : Prop :=
  ∃ cause store', service.save p c store = (.failed cause, store')

namespace Engine

variable {σ α β : Type} {service : Service σ} {e : Engine σ} {draft : Draft}

/-- Whether an operation fails and leaves all but the service and the saves under way as it was. -/
def FailsInPlace (action : Action σ α) (e : Engine σ) : Prop :=
  ∃ error store saves, action e = .error (.failed error) { e with store, saves }

/-- Nothing follows a step that fails. -/
theorem FailsInPlace.bind {action : Action σ α} (h : FailsInPlace action e)
    (next : α → Action σ β) : FailsInPlace (action >>= next) e := by
  obtain ⟨error, store, saves, heq⟩ := h
  refine ⟨error, store, saves, ?_⟩
  rw [bind_apply, heq]

theorem failsInPlace_get_bind {next : Engine σ → Action σ α} (h : FailsInPlace (next e) e) :
    FailsInPlace (get >>= next) e := h

theorem failsInPlace_of_eq {action : Action σ α} {error : EngineError}
    (h : action e = .error (.failed error) e) : FailsInPlace action e :=
  ⟨error, e.store, e.saves, h⟩

/-! ## Saves -/

/-- A save that is refused takes back what it has shown. -/
theorem failsInPlace_save {p : Coord} {c : Content} (h : service.Refuses e.store p c) :
    FailsInPlace (save service p c) e := by
  cases hcan : e.canSave p with
  | false =>
    obtain ⟨error, herror⟩ := save_of_not_canSave service c hcan
    exact failsInPlace_of_eq herror
  | true =>
    obtain ⟨cause, store, hreply⟩ := h
    have hsave := save_of_canSave service c hcan
    rw [hreply] at hsave
    exact ⟨_, _, _, hsave⟩

/-- Closing the editor opens it again on the draft. -/
theorem failsInPlace_commitDraft (heditor : e.editor = .inline draft)
    (hmodified : draft.isModified = true)
    (h : service.Refuses e.store draft.coord (.text draft.text)) :
    FailsInPlace (commitDraft service) e := by
  have hfinish := finishEditing_of_inline heditor
  -- The save meets an engine whose editor is closed, and leaves it closed.
  obtain ⟨error, store, saves, hsave⟩ :=
    failsInPlace_save (e := { e with editor := .selected }) h
  refine ⟨error, store, saves, ?_⟩
  simp only [commitDraft, bind_apply, hfinish, hmodified, attempt, hsave, edit_eq,
    Editor.openInline, fail_apply, Bool.not_true, Bool.false_eq_true, if_false, ← heditor]

/-! ## Keys and clicks -/

theorem failsInPlace_travel (heditor : e.editor = .inline draft) (hactive : e.active?.isSome)
    (h : FailsInPlace (commitDraft service) e) (direction : Direction) (extend : Bool) :
    FailsInPlace (travel service direction extend) e := by
  have hfails :=
    h.bind fun _ => ensureFresh >>= fun _ => step direction false >>= openEditor service
  obtain ⟨error, store, saves, heq⟩ := hfails
  exact ⟨error, store, saves, (travel_of_inline service heditor hactive direction extend).trans heq⟩

/-- A key that moves on from the cell does not get away from it. -/
theorem failsInPlace_handleKey (heditor : e.editor = .inline draft) (hactive : e.active?.isSome)
    (h : FailsInPlace (commitDraft service) e) {key : Key} (hescape : key ≠ .escape)
    (hf2 : key ≠ .f2) : FailsInPlace (handleKey service key) e := by
  have htravel := failsInPlace_travel heditor hactive h
  have hphase := phase_of_inline heditor
  refine failsInPlace_get_bind ?_
  rw [hphase, if_neg (by decide)]
  cases key with
  | escape => exact absurd rfl hescape
  | f2 => exact absurd rfl hf2
  | tab shift => exact htravel _ _
  | arrow direction extend => exact htravel _ _
  | enter shift =>
    cases shift with
    | true => exact htravel _ _
    | false =>
      simp only [if_true]
      -- The direction is worked out before the draft is saved, and is not found on a stale grid.
      rcases enterDirection_cases e with ⟨direction, heq⟩ | ⟨-, error, heq⟩
      · obtain ⟨error, store, saves, hfails⟩ := htravel direction false
        refine ⟨error, store, saves, ?_⟩
        rw [bind_apply, heq]
        exact hfails
      · exact (failsInPlace_of_eq heq).bind _

/-- A click on another cell does not get there. -/
theorem failsInPlace_activate (heditor : e.editor = .inline draft)
    (h : FailsInPlace (commitDraft service) e) {p : Coord} (hin : e.grid.contains p = true)
    (howner : e.grid.owner? p ≠ some draft.coord) : FailsInPlace (activate service p) e := by
  have hphase := phase_of_inline heditor
  rcases activate_eq service e p with ⟨owner, -, -, howner', heq⟩ | ⟨hguard, -⟩
  · have hediting : e.editor.editing? ≠ some owner := by
      rw [heditor, ← howner']
      exact howner.symm
    have hclick : FailsInPlace (click service e p owner) e := by
      rw [click, if_neg hediting, if_pos (.inl hphase)]
      exact h.bind _
    obtain ⟨error, store, saves, hfails⟩ := hclick
    exact ⟨error, store, saves, heq.trans hfails⟩
  -- A click inside the grid is only in the way of a stale grid.
  · have hstale : e.stale = true := by
      simpa [hphase, hin] using hguard
    refine failsInPlace_get_bind ?_
    rw [hphase, if_neg (by decide)]
    have hfails : FailsInPlace ensureFresh e :=
      failsInPlace_of_eq (by rw [ensureFresh_apply, if_pos hstale])
    exact hfails.bind _

/-- Where the service refuses, a save fails in place.  So does whatever closes the inline editor on
    a changed draft while a cell is active: committing the draft, the enter key, the tab key and the
    arrows, and clicks on cells of the grid with another owner. -/
theorem failsInPlace_of_refuses (service : Service σ) (e : Engine σ) :
    (∀ p c, service.Refuses e.store p c → FailsInPlace (save service p c) e) ∧
      ∀ draft, e.editor = .inline draft → draft.isModified = true → e.active?.isSome →
        service.Refuses e.store draft.coord (.text draft.text) →
          FailsInPlace (commitDraft service) e ∧
          (∀ key, key ≠ .escape → key ≠ .f2 → FailsInPlace (handleKey service key) e) ∧
          ∀ p, e.grid.contains p = true → e.grid.owner? p ≠ some draft.coord →
            FailsInPlace (activate service p) e := by
  refine ⟨fun p c => failsInPlace_save, ?_⟩
  intro draft heditor hmodified hactive hrefuses
  have hcommit := failsInPlace_commitDraft heditor hmodified hrefuses
  refine ⟨hcommit, fun key => ?_, fun p => ?_⟩
  · exact failsInPlace_handleKey heditor hactive hcommit
  · exact failsInPlace_activate heditor hcommit

/-- A changed draft for the first of two cells, and a service that cannot be reached. -/
theorem failsInPlace_of_refuses_unreachable :
    let service : Service Unit :=
      { save := fun _ _ _ => (.failed .unreachable, ())
        load := fun _ _ => (.answered .empty, ())
        reshape := fun _ _ => (.unanswered, ()) }
    let e := run service (opened (.ofSize 1 2) () {})
      [.interact (.select ⟨0, 0⟩ false), .interact (.key .f2), .interact (.updateDraft "x")]
    FailsInPlace (save service ⟨0, 1⟩ (.text "y")) e ∧
      FailsInPlace (commitDraft service) e ∧
      FailsInPlace (handleKey service (.enter false)) e ∧
      FailsInPlace (activate service ⟨0, 1⟩) e := by
  intro service e
  obtain ⟨hsave, hdraft⟩ := failsInPlace_of_refuses service e
  obtain ⟨hcommit, hkey, hactivate⟩ := hdraft ⟨⟨0, 0⟩, "", "x"⟩ (by decide +kernel) (by decide)
    (by decide +kernel) ⟨.unreachable, (), rfl⟩
  exact ⟨hsave _ _ ⟨.unreachable, (), rfl⟩, hcommit, hkey _ (by decide) (by decide),
    hactivate _ (by decide +kernel) (by decide +kernel)⟩

/-! ## Leaving the expanded editor -/

/-- Whether a text entered for the cell being edited is not lost: the editor is open as before, or
    the inline editor has the text as a change of the cell, and grid, overlay and selection are the
    same. -/
def LosesNothing (e : Engine σ) (text : String) (e' : Engine σ) : Prop :=
  e'.grid = e.grid ∧ e'.overlay = e.overlay ∧ e'.cursor.selection = e.cursor.selection ∧
    (e'.editor = e.editor ∨ ∃ kept, e'.editor = .inline kept ∧
      e.editor.editing? = some kept.coord ∧ kept.text = text ∧ kept.isModified = true)

/-- The editor collapses before the save, and its draft follows only after it. -/
theorem finishExpanded_of_refuses (heditor : e.editor = .expanded draft) {text : String}
    (h : service.Refuses e.store draft.coord (.text text)) :
    ∃ error store saves, finishExpanded service (some text) e =
      .error (.failed error) { e with store, saves, editor := .inline draft } := by
  have hcollapse : edit Editor.collapse e = .ok () { e with editor := .inline draft } := by
    rw [edit_eq, heditor]
    rfl
  obtain ⟨error, store, saves, hsave⟩ :=
    failsInPlace_save (e := { e with editor := .inline draft }) h
  have hediting : (Editor.inline draft).editing? = some draft.coord := rfl
  refine ⟨error, store, saves, ?_⟩
  simp only [finishExpanded, bind_apply, get_apply, hcollapse, hediting, orFail_some, hsave]

/-- Back on its draft, the inline editor has the texts that the draft had as a change already. -/
theorem losesNothing_inline_iff (heditor : e.editor = .expanded draft) (text : String) (store : σ)
    (saves : Saves) :
    e.LosesNothing text { e with store, saves, editor := .inline draft } ↔
      draft.text = text ∧ draft.isModified = true := by
  have hclosed : Editor.inline draft ≠ e.editor := by
    rw [heditor]
    exact fun heq => nomatch congrArg Editor.phase heq
  have hediting : e.editor.editing? = some draft.coord := by
    rw [heditor]
    rfl
  constructor
  · rintro ⟨-, -, -, hsame | ⟨kept, hkept, -, htext, hmodified⟩⟩
    · exact absurd hsame hclosed
    · cases hkept
      exact ⟨htext, hmodified⟩
  · rintro ⟨htext, hmodified⟩
    exact ⟨rfl, rfl, rfl, .inr ⟨draft, rfl, hediting, htext, hmodified⟩⟩

/-- Where the service refuses, leaving the expanded editor with a text fails.  What is left is the
    engine from before with the inline editor open on the old draft, but for the service and the
    saves under way; so the text is lost, unless it is the one that the draft had already, as a
    change of the cell. -/
theorem finishExpanded_refused (heditor : e.editor = .expanded draft) {text : String}
    (h : service.Refuses e.store draft.coord (.text text)) :
    ∃ error store saves,
      let e' : Engine σ := { e with store, saves, editor := .inline draft }
      finishExpanded service (some text) e = .error (.failed error) e' ∧
        (e.LosesNothing text e' ↔ draft.text = text ∧ draft.isModified = true) := by
  obtain ⟨error, store, saves, heq⟩ := finishExpanded_of_refuses heditor h
  exact ⟨error, store, saves, heq, losesNothing_inline_iff heditor text store saves⟩

/-- A draft that was changed inline and is saved from the expanded editor as it is. -/
theorem finishExpanded_refused_unchanged :
    let service : Service Unit :=
      { save := fun _ _ _ => (.failed .unreachable, ())
        load := fun _ _ => (.answered .empty, ())
        reshape := fun _ _ => (.unanswered, ()) }
    let e := run service (opened (.ofSize 1 2) () {})
      [.interact (.select ⟨0, 0⟩ false), .interact (.key .f2), .interact (.updateDraft "x"),
        .interact .expandEditor]
    ∃ error e', finishExpanded service (some "x") e = .error (.failed error) e' ∧
      e.LosesNothing "x" e' := by
  intro service e
  have heditor : e.editor = .expanded ⟨⟨0, 0⟩, "", "x"⟩ := by decide +kernel
  have hrefuses : service.Refuses e.store ⟨0, 0⟩ (.text "x") := ⟨.unreachable, (), rfl⟩
  obtain ⟨error, store, saves, heq, hkeeps⟩ := finishExpanded_refused heditor hrefuses
  exact ⟨error, _, heq, hkeeps.2 ⟨rfl, by decide⟩⟩

/-- A text entered in the expanded editor of a cell that shows another one. -/
theorem finishExpanded_loses_text :
    let service : Service Unit :=
      { save := fun _ _ _ => (.failed .unreachable, ())
        load := fun _ _ => (.answered (.text "a"), ())
        reshape := fun _ _ => (.unanswered, ()) }
    let e := run service (opened { rows := [{ cells := [.plain (.text "a")] }] } () {})
      [.interact (.select ⟨0, 0⟩ false), .interact (.key .f2), .interact .expandEditor]
    ∃ error e', finishExpanded service (some "x") e = .error (.failed error) e' ∧
      e'.editor = .inline ⟨⟨0, 0⟩, "a", "a"⟩ ∧ ¬e.LosesNothing "x" e' := by
  intro service e
  have heditor : e.editor = .expanded ⟨⟨0, 0⟩, "a", "a"⟩ := by decide +kernel
  have hrefuses : service.Refuses e.store ⟨0, 0⟩ (.text "x") := ⟨.unreachable, (), rfl⟩
  obtain ⟨error, store, saves, heq⟩ := finishExpanded_of_refuses heditor hrefuses
  refine ⟨error, _, heq, rfl, ?_⟩
  rw [losesNothing_inline_iff heditor]
  decide

end Engine

end TableGrid
