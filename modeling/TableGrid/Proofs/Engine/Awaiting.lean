import TableGrid.Proofs.Engine.Session

/-!
# Waiting for the answer to a change of shape

While a change of shape waits for its answer, the cells may be anywhere.  Nothing is shown or
changed then, and answers to earlier saves come too late, until the answer comes in, the grid is
rebuilt or another table or overlay is taken.

## Key results

- `awaits_changeShape`: a change of shape that is not answered
- `Awaits.isLocked`: what an engine refuses meanwhile
- `Awaits.call`: nothing but the store changes
- `session_awaiting`: a session that does not end the waiting
-/

namespace TableGrid

/-- Whether a call may end the waiting for an answer. -/
def Call.settles {σ : Type} : Call σ → Bool
  | .perform (.changeShape _) | .perform .rebuild | .perform (.replaceTable _) => true
  | .withOverlay _ => true
  | _ => false

namespace Saves

theorem isLatest_clear (s : Saves) (t : Ticket) : s.clear.isLatest t = false := by
  simp [isLatest, clear]

theorem complete_clear (s : Saves) (t : Ticket) : s.clear.complete t = s.clear := by
  rw [complete, isLatest_clear]
  rfl

end Saves

namespace Engine

variable {σ α : Type} {service : Service σ} {e : Engine σ}

/-- Whether a change of shape has been asked for and not been answered. -/
def Awaits (e : Engine σ) : Prop := ∃ (before : Engine σ) (store : σ),
  e = { before.awaitingShape with store }

/-- A request without an answer leaves the engine waiting. -/
theorem awaits_changeShape {request : ShapeRequest} {r : Reshape} {store : σ}
    (hsent : e.reshape? request = some r)
    (hreply : service.reshape r e.store = (.unanswered, store)) :
    (e.changeShape service request).Awaits := by
  rw [changeShape_eq, hsent]
  obtain ⟨store', ⟨table, hanswered, -⟩ | ⟨cause, hfailed, -⟩ | ⟨-, heq⟩⟩ :=
    reshape_cases service r e
  · cases hreply.symm.trans hanswered
  · cases hreply.symm.trans hfailed
  · exact ⟨e, store', heq⟩

/-- Whether an operation fails because the grid is stale, and changes nothing. -/
def FailsStale (action : Action σ α) (e : Engine σ) : Prop := action e = .error (.failed .stale) e

/-- Whether an engine neither shows nor changes anything, and lets answers to saves pass. -/
structure IsLocked (service : Service σ) (e : Engine σ) : Prop where
  freshGrid : FailsStale freshGrid e
  cellStyle : ∀ p, FailsStale (cellStyle p) e
  rowStyle : ∀ row, FailsStale (rowStyle row) e
  colStyle : ∀ col, FailsStale (colStyle col) e
  tableStyle : FailsStale tableStyle e
  select : ∀ p extend, FailsStale (select p extend) e
  move : ∀ direction extend, FailsStale (move direction extend) e
  activate : ∀ p, FailsStale (activate service p) e
  beginSave : ∀ p c, FailsStale (beginSave p c) e
  save : ∀ p c, FailsStale (save service p c) e
  setAttribute : ∀ name text, FailsStale (setAttribute name text) e
  clearAttribute : ∀ name, FailsStale (clearAttribute name) e
  clearAttributes : FailsStale clearAttributes e
  finishSave : ∀ ticket persisted, finishSave ticket persisted e = .ok .superseded e

/-- Saves under way have been forgotten, so an answer changes nothing. -/
theorem Awaits.finishSave (h : e.Awaits) (ticket : Ticket) (persisted : Content) :
    finishSave ticket persisted e = .ok .superseded e := by
  obtain ⟨before, store, rfl⟩ := h
  have haccepts : ({ before.awaitingShape with store } : Engine σ).accepts ticket = false := by
    rw [accepts, show ({ before.awaitingShape with store } : Engine σ).saves = before.saves.clear
      from rfl, Saves.isLatest_clear, Bool.false_and, Bool.false_and]
  rw [finishSave_eq, haccepts, finished, haccepts]
  simp only [Bool.false_and, Bool.false_eq_true, if_false, awaitingShape, Saves.complete_clear]

theorem Awaits.abandonSave (h : e.Awaits) (ticket : Ticket) : after (abandonSave ticket) e = e := by
  obtain ⟨before, store, rfl⟩ := h
  show ({ before.awaitingShape with store, saves := before.saves.clear.complete ticket } : Engine σ)
    = _
  rw [Saves.complete_clear]
  rfl

/-- Whatever looks at the grid or writes on it first looks whether it is stale. -/
theorem Awaits.isLocked (h : e.Awaits) (service : Service σ) : e.IsLocked service := by
  have hfinish := h.finishSave
  obtain ⟨before, store, rfl⟩ := h
  exact {
    freshGrid := rfl
    cellStyle := fun _ => rfl
    rowStyle := fun _ => rfl
    colStyle := fun _ => rfl
    tableStyle := rfl
    select := fun _ _ => rfl
    move := fun _ _ => rfl
    activate := fun _ => rfl
    beginSave := fun _ _ => rfl
    save := fun _ _ => rfl
    setAttribute := fun _ _ => rfl
    clearAttribute := fun _ => rfl
    clearAttributes := rfl
    finishSave := hfinish }

/-- There is no draft and no active cell to do anything with. -/
theorem Awaits.interact (h : e.Awaits) (service : Service σ) (i : Interaction) :
    e.interact service i = e := by
  have hlocked := h.isLocked service
  obtain ⟨before, store, rfl⟩ := h
  cases i with
  | select p extend => exact after_eq_of_error (hlocked.select p extend)
  | move direction extend => exact after_eq_of_error (hlocked.move direction extend)
  | activate p => exact after_eq_of_error (hlocked.activate p)
  | save p c => exact after_eq_of_error (hlocked.save p c)
  | key key =>
    cases key with
    | enter shift => cases shift <;> rfl
    | tab shift => rfl
    | escape => rfl
    | f2 => rfl
    | arrow direction extend => rfl
  | updateDraft text => rfl
  | commitEdit text => rfl
  | commitDraft => rfl
  | cancelEdit => rfl
  | expandEditor => rfl
  | finishExpanded text? => rfl

/-- Nothing but the store changes until something ends the waiting. -/
theorem Awaits.call (h : e.Awaits) (service : Service σ) {c : Call σ} (hc : c.settles = false) :
    ∃ store, call service e c = { e with store } := by
  have hlocked := h.isLocked service
  cases c with
  | withOverlay overlay => cases hc
  | withStore store => exact ⟨store, rfl⟩
  | perform op =>
    refine ⟨e.store, ?_⟩
    cases op with
    | interact i => exact h.interact service i
    | beginSave p c => exact after_eq_of_error (hlocked.beginSave p c)
    | finishSave ticket persisted => exact after_eq_of_ok (hlocked.finishSave ticket persisted)
    | abandonSave ticket => exact h.abandonSave ticket
    | changeAttributes request =>
      cases request with
      | set name text => exact after_eq_of_error (hlocked.setAttribute name text)
      | clear name => exact after_eq_of_error (hlocked.clearAttribute name)
      | clearAll => exact after_eq_of_error hlocked.clearAttributes
    | changeShape request => cases hc
    | rebuild => cases hc
    | replaceTable table => cases hc

theorem Awaits.withStore (h : e.Awaits) (store : σ) : ({ e with store } : Engine σ).Awaits := by
  obtain ⟨before, _, rfl⟩ := h
  exact ⟨before, store, rfl⟩

/-- While a change of shape waits for its answer nothing leaks: through whatever is done with the
    engine but for changes of shape, rebuilds and other tables and overlays, nothing but the store
    changes, and all that shows or edits the table is refused. -/
theorem session_awaiting (service : Service σ) (h : e.Awaits) (calls : List (Call σ))
    (hcalls : ∀ c ∈ calls, c.settles = false) :
    (∃ store, session service e calls = { e with store }) ∧
      (session service e calls).IsLocked service := by
  induction calls using List.reverseRecOn with
  | nil => exact ⟨⟨e.store, rfl⟩, h.isLocked service⟩
  | append_singleton calls c ih =>
    obtain ⟨⟨store, hsession⟩, -⟩ := ih fun c hc => hcalls c (List.mem_append_left _ hc)
    have hwaits := h.withStore store
    obtain ⟨store', hcall⟩ := hwaits.call service (hcalls c (by simp))
    rw [session_concat, hsession, hcall]
    exact ⟨⟨store', rfl⟩, (h.withStore store').isLocked service⟩

/-- A service that never answers changes of shape, a save that was under way before, and a few
    attempts to go on. -/
theorem session_awaiting_silent :
    let service : Service Unit :=
      { save := fun _ c _ => (.answered c, ())
        load := fun _ _ => (.answered .empty, ())
        reshape := fun _ _ => (.unanswered, ()) }
    let e := run service (opened (.ofSize 2 2) () {})
      [.interact (.select ⟨0, 0⟩ false), .beginSave ⟨0, 1⟩ (.text "x"),
        .changeShape (.addRow none)]
    let calls : List (Call Unit) :=
      [.perform (.interact (.key .f2)), .perform (.finishSave ⟨⟨0, 1⟩, 1, .text "x"⟩ (.text "x")),
        .perform (.interact (.activate ⟨0, 0⟩))]
    (∃ store, session service e calls = { e with store }) ∧
      (session service e calls).IsLocked service := by
  intro service e calls
  have hwaits : e.Awaits := by
    show (changeShape service (run service (opened (.ofSize 2 2) () {})
      [.interact (.select ⟨0, 0⟩ false), .beginSave ⟨0, 1⟩ (.text "x")]) (.addRow none)).Awaits
    exact awaits_changeShape rfl rfl
  exact session_awaiting service hwaits calls (by decide)

end Engine

end TableGrid
