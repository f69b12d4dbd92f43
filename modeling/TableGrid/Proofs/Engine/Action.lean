import TableGrid.Engine.Basic

/-!
# What an operation leaves behind

`Engine.after` is the engine that an operation leaves behind, whichever way it ends.  Most
operations touch a part of it only: `Engine.Keeps` says that a view of the engine is the same
afterwards, and the lemmas here carry that through the steps of an operation.  `Engine.sheet`
is the view without cursor, editor and service.  `Engine.Ends` says what holds at both ends of an
operation, and its lemmas go through the steps in the same way.

## Key results

- `after_bind`: an operation in two steps
- `Keeps.bind`: steps that keep a view keep it together
- `view_after_bind`: what follows may be ignored where it keeps the view
- `Ends.bind`: what holds at both ends of an operation in two steps
-/

namespace TableGrid

/-- What an engine holds of its table: all but cursor, editor and the state of the service. -/
structure Sheet where
  table : Table
  overlay : Overlay
  options : Options
  grid : Grid
  saves : Saves
  stale : Bool

namespace Engine

variable {σ α β γ : Type} {view : Engine σ → γ}

/-- The table side of an engine. -/
def sheet (e : Engine σ) : Sheet := ⟨e.table, e.overlay, e.options, e.grid, e.saves, e.stale⟩

/-- The engine that an operation leaves behind, whichever way it ends. -/
def after (action : Action σ α) (e : Engine σ) : Engine σ :=
  match action e with
  | .ok _ e' => e'
  | .error _ e' => e'

theorem after_bind (action : Action σ α) (next : α → Action σ β) (e : Engine σ) :
    after (action >>= next) e =
      match action e with
      | .ok value e' => after (next value) e'
      | .error _ e' => e' := by
  simp only [after, bind, EStateM.bind]
  cases action e <;> rfl

theorem after_eq_of_ok {action : Action σ α} {e e' : Engine σ} {value : α}
    (h : action e = .ok value e') : after action e = e' := by
  rw [after, h]

theorem after_eq_of_error {action : Action σ α} {e e' : Engine σ} {cause : Interruption}
    (h : action e = .error cause e') : after action e = e' := by
  rw [after, h]

/-! ## Running single steps -/

@[simp] theorem pure_apply (value : α) (e : Engine σ) :
    (pure value : Action σ α) e = .ok value e := rfl

theorem bind_apply (action : Action σ α) (next : α → Action σ β) (e : Engine σ) :
    (action >>= next) e =
      match action e with
      | .ok value e' => next value e'
      | .error cause e' => .error cause e' := by
  simp only [bind, EStateM.bind]
  cases action e <;> rfl

@[simp] theorem get_apply (e : Engine σ) : (get : Action σ (Engine σ)) e = .ok e e := rfl

@[simp] theorem set_apply (e' e : Engine σ) : (set e' : Action σ PUnit) e = .ok ⟨⟩ e' := rfl

@[simp] theorem modify_apply (f : Engine σ → Engine σ) (e : Engine σ) :
    (modify f : Action σ PUnit) e = .ok ⟨⟩ (f e) := rfl

@[simp] theorem fail_apply (error : EngineError) (e : Engine σ) :
    (fail error : Action σ α) e = .error (.failed error) e := rfl

@[simp] theorem ofExcept_ok {ε : Type} (wrap : ε → EngineError) (value : α) (e : Engine σ) :
    (ofExcept wrap (.ok value) : Action σ α) e = .ok value e := rfl

@[simp] theorem ofExcept_error {ε : Type} (wrap : ε → EngineError) (cause : ε) (e : Engine σ) :
    (ofExcept wrap (.error cause) : Action σ α) e = .error (.failed (wrap cause)) e := rfl

@[simp] theorem orFail_some (error : EngineError) (value : α) (e : Engine σ) :
    (orFail error (some value) : Action σ α) e = .ok value e := rfl

theorem ensureFresh_apply (e : Engine σ) :
    ensureFresh e = if e.stale then .error (.failed .stale) e else .ok () e := by
  rw [ensureFresh, bind_apply, get_apply]
  cases h : e.stale <;> simp [h]

theorem edit_eq (step : Editor → Except PhaseConflict Editor) (e : Engine σ) :
    edit step e =
      match step e.editor with
      | .ok editor => .ok () { e with editor }
      | .error cause => .error (.failed (.conflict cause)) e := by
  simp only [edit, bind_apply, get_apply]
  cases step e.editor <;> rfl

theorem ask_of_answered {request : σ → Reply α × σ} {e : Engine σ} {value : α} {store : σ}
    (h : request e.store = (.answered value, store)) :
    ask request e = .ok (.ok value) { e with store } := by
  simp only [ask, h]

theorem ask_of_failed {request : σ → Reply α × σ} {e : Engine σ} {cause : ServiceFailure}
    {store : σ} (h : request e.store = (.failed cause, store)) :
    ask request e = .ok (.error cause) { e with store } := by
  simp only [ask, h]

theorem ask_of_unanswered {request : σ → Reply α × σ} {e : Engine σ} {store : σ}
    (h : request e.store = (.unanswered, store)) :
    ask request e = .error .abandoned { e with store } := by
  simp only [ask, h]

/-! ## Views that are kept -/

/-- Whether a view of the engine is the same after an operation. -/
def Keeps (view : Engine σ → γ) (action : Action σ α) : Prop := ∀ e, view (after action e) = view e

theorem Keeps.pure (value : α) : Keeps view (pure value : Action σ α) := fun _ => rfl

theorem Keeps.get : Keeps view (get : Action σ (Engine σ)) := fun _ => rfl

theorem Keeps.fail (error : EngineError) : Keeps view (fail error : Action σ α) := fun _ => rfl

theorem Keeps.modify {f : Engine σ → Engine σ} (h : ∀ e, view (f e) = view e) :
    Keeps view (modify f : Action σ PUnit) := fun e => h e

/-- Steps that keep a view keep it together. -/
theorem Keeps.bind {action : Action σ α} {next : α → Action σ β} (h : Keeps view action)
    (hnext : ∀ value, Keeps view (next value)) : Keeps view (action >>= next) := by
  intro e
  have he := h e
  rw [after_bind]
  unfold after at he
  cases heq : action e with
  | ok value e' =>
    rw [heq] at he
    exact (hnext value e').trans he
  | error cause e' =>
    rw [heq] at he
    exact he

/-- What follows a step may be ignored where it keeps the view. -/
theorem view_after_bind (view : Engine σ → γ) {action : Action σ α} {next : α → Action σ β}
    (h : ∀ value, Keeps view (next value)) (e : Engine σ) :
    view (after (action >>= next) e) = view (after action e) := by
  rw [after_bind, after]
  cases action e with
  | ok value e' => exact h value e'
  | error cause e' => rfl

theorem Keeps.ofExcept {ε : Type} (wrap : ε → EngineError) (result : Except ε α) :
    Keeps view (ofExcept wrap result : Action σ α) := by
  cases result with
  | ok value => exact Keeps.pure value
  | error cause => exact Keeps.fail _

theorem Keeps.orFail (error : EngineError) (value? : Option α) :
    Keeps view (orFail error value? : Action σ α) := by
  cases value? with
  | some value => exact Keeps.pure value
  | none => exact Keeps.fail _

theorem Keeps.ensureFresh : Keeps view (ensureFresh : Action σ Unit) := by
  refine Keeps.get.bind fun e => ?_
  split
  · exact Keeps.fail _
  · exact Keeps.pure _

theorem Keeps.ensureClosed (action : EditAction) :
    Keeps view (ensureClosed action : Action σ Unit) := by
  refine Keeps.get.bind fun e => ?_
  simp only
  split
  · exact Keeps.fail _
  · exact Keeps.pure _

/-! ## Both ends of an operation -/

/-- Whether an operation hands out a value and leaves an engine that `done` accepts with it, or ends
    without a value and leaves one that `stopped` accepts. -/
def Ends (action : Action σ α) (e : Engine σ) (done : α → Engine σ → Prop)
    (stopped : Engine σ → Prop) : Prop :=
  match action e with
  | .ok value e' => done value e'
  | .error _ e' => stopped e'

section Ends

variable {e : Engine σ} {done done' : α → Engine σ → Prop} {stopped stopped' : Engine σ → Prop}

/-- What holds at both ends holds of what is left. -/
theorem ends_iff_after {action : Action σ α} {P : Engine σ → Prop} :
    Ends action e (fun _ => P) P ↔ P (after action e) := by
  unfold Ends after
  cases action e <;> rfl

theorem Ends.mono {action : Action σ α} (h : Ends action e done stopped)
    (hdone : ∀ value e', done value e' → done' value e')
    (hstopped : ∀ e', stopped e' → stopped' e') : Ends action e done' stopped' := by
  unfold Ends at h ⊢
  cases heq : action e with
  | ok value e' =>
    rw [heq] at h
    exact hdone value e' h
  | error cause e' =>
    rw [heq] at h
    exact hstopped e' h

/-- What follows a step starts from what the step leaves. -/
theorem ends_bind {action : Action σ α} {next : α → Action σ β} {done : β → Engine σ → Prop}
    (h : Ends action e (fun value e' => Ends (next value) e' done stopped) stopped) :
    Ends (action >>= next) e done stopped := by
  unfold Ends at h
  rw [Ends, bind_apply]
  cases heq : action e with
  | ok value e' =>
    rw [heq] at h
    exact h
  | error cause e' =>
    rw [heq] at h
    exact h

theorem Ends.bind {action : Action σ α} {next : α → Action σ β} {done' : β → Engine σ → Prop}
    (h : Ends action e done stopped)
    (hnext : ∀ value e', done value e' → Ends (next value) e' done' stopped) :
    Ends (action >>= next) e done' stopped :=
  ends_bind (h.mono hnext fun _ => id)

theorem ends_get_bind {next : Engine σ → Action σ α} (h : Ends (next e) e done stopped) :
    Ends (get >>= next) e done stopped := h

theorem ends_ofExcept {ε : Type} {wrap : ε → EngineError} {result : Except ε α}
    (hdone : ∀ value, result = .ok value → done value e) (hstopped : stopped e) :
    Ends (ofExcept wrap result) e done stopped := by
  cases result with
  | ok value => exact hdone value rfl
  | error cause => exact hstopped

theorem ends_orFail {error : EngineError} {value? : Option α}
    (hdone : ∀ value, value? = some value → done value e) (hstopped : stopped e) :
    Ends (orFail error value?) e done stopped := by
  cases value? with
  | some value => exact hdone value rfl
  | none => exact hstopped

theorem ends_ensureFresh {done : Unit → Engine σ → Prop} (hdone : done () e)
    (hstopped : stopped e) : Ends ensureFresh e done stopped := by
  unfold Ends
  rw [ensureFresh_apply]
  cases e.stale with
  | true => exact hstopped
  | false => exact hdone

theorem ends_ensureClosed {action : EditAction} {done : Unit → Engine σ → Prop}
    (hdone : e.editor.editing? = none → done () e) (hstopped : stopped e) :
    Ends (ensureClosed action) e done stopped := by
  refine ends_get_bind ?_
  cases heditor : e.editor with
  | idle => exact hdone (by rw [heditor]; rfl)
  | selected => exact hdone (by rw [heditor]; rfl)
  | inline draft => exact hstopped
  | expanded draft => exact hstopped

/-- A service touches nothing but its own state. -/
theorem ends_ask {request : σ → Reply α × σ} {done : Except ServiceFailure α → Engine σ → Prop}
    (hdone : ∀ answer, done answer { e with store := (request e.store).2 })
    (hstopped : stopped { e with store := (request e.store).2 }) :
    Ends (ask request) e done stopped := by
  unfold Ends ask
  rcases hreply : request e.store with ⟨reply, store⟩
  rw [hreply] at hdone hstopped
  cases reply with
  | answered value => exact hdone (.ok value)
  | failed cause => exact hdone (.error cause)
  | unanswered => exact hstopped

/-- An error that is handed out is no end without a value. -/
theorem ends_attempt {action : Action σ α} {done : Except EngineError α → Engine σ → Prop}
    (h : Ends action e (fun value => done (.ok value))
      (fun e' => (∀ error, done (.error error) e') ∧ stopped e')) :
    Ends (attempt action) e done stopped := by
  unfold Ends at h ⊢
  unfold attempt
  cases heq : action e with
  | ok value e' =>
    rw [heq] at h
    exact h
  | error cause e' =>
    rw [heq] at h
    cases cause with
    | failed error => exact h.1 error
    | abandoned => exact h.2

theorem ends_edit {step : Editor → Except PhaseConflict Editor} {done : Unit → Engine σ → Prop}
    (hdone : ∀ editor, step e.editor = .ok editor → done () { e with editor })
    (hstopped : stopped e) : Ends (edit step) e done stopped := by
  unfold Ends
  rw [edit_eq]
  cases hstep : step e.editor with
  | ok editor => exact hdone editor hstep
  | error cause => exact hstopped

end Ends

/-! ## The sheet -/

/-- Requests do not touch the sheet. -/
theorem Keeps.ask (request : σ → Reply α × σ) : Keeps sheet (ask request) := by
  intro e
  unfold after Engine.ask
  cases request e.store with
  | mk reply store => cases reply <;> rfl

/-- Steps of the editor do not touch the sheet. -/
theorem Keeps.edit (step : Editor → Except PhaseConflict Editor) :
    Keeps sheet (edit step : Action σ Unit) :=
  Keeps.get.bind fun _ => (Keeps.ofExcept _ _).bind fun _ => Keeps.modify fun _ => rfl

/-- Moving the cursor does not touch the sheet. -/
theorem Keeps.step (direction : Direction) (extend : Bool) :
    Keeps sheet (step direction extend : Action σ Coord) := by
  intro e
  -- The cursor is set before the step can fail.
  rw [Engine.step, after_bind]
  show sheet (after (set { e with cursor := _ } >>= _) e) = _
  rw [after_bind]
  exact Keeps.orFail _ _ _

theorem Keeps.move (direction : Direction) (extend : Bool) :
    Keeps sheet (move direction extend : Action σ Coord) :=
  (Keeps.ensureClosed _).bind fun _ => Keeps.ensureFresh.bind fun _ =>
    (Keeps.step direction extend).bind fun target => (Keeps.edit _).bind fun _ => Keeps.pure target

theorem Keeps.select (p : Coord) (extend : Bool) :
    Keeps sheet (select p extend : Action σ Coord) := by
  refine (Keeps.ensureClosed _).bind fun _ => Keeps.ensureFresh.bind fun _ =>
    Keeps.get.bind fun _ => (Keeps.ofExcept _ _).bind fun _ => (Keeps.orFail _ _).bind ?_
  rintro ⟨owner, cursor⟩
  refine Keeps.bind (Keeps.modify ?_) fun _ => (Keeps.edit _).bind fun _ => Keeps.pure owner
  exact fun _ => rfl

end Engine

end TableGrid
