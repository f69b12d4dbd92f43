import TableGrid.Proofs.Engine.Steady

/-!
# Sessions

In a session the owner of an engine carries out operations, and between them may lay another local
overlay on the table or change the state of the service.  Whatever the owner does, the selection
rests on owners of the grid.  The editor is not brought onto a new grid like the cursor is: it stays
on the active cell if and only if every grid that is built anew under it has a place for it.

## Key results

- `isBuilt_session`: the grid agrees with a rebuild
- `steady_call`: what one call keeps
- `rests_session`: the active cell and the anchor are owners after any session
- `attends_call_iff`: when the editor is on the active cell after one call
- `attends_session_iff`: when it is there all along a session
-/

namespace TableGrid

/-- What the owner of an engine does with it. -/
inductive Call (σ : Type) where
  | perform (op : Operation)
  | withOverlay (overlay : Overlay)
  | withStore (store : σ)

/-- Whether a call builds the grid anew from another table or overlay while an editor may be
    open. -/
def Call.regrids {σ : Type} : Call σ → Bool
  | .perform op => op.regrids
  | .withOverlay _ => true
  | .withStore _ => false

namespace Engine

variable {σ : Type} {service : Service σ} {e e' : Engine σ} {attended : Prop}

/-- Do one thing with an engine, whichever way it ends. -/
def call (service : Service σ) (e : Engine σ) : Call σ → Engine σ
  | .perform op => perform service e op
  | .withOverlay overlay => e.withOverlay overlay
  | .withStore store => { e with store }

/-- Do one thing after the other. -/
def session (service : Service σ) (e : Engine σ) (calls : List (Call σ)) : Engine σ :=
  calls.foldl (call service) e

theorem session_concat (service : Service σ) (e : Engine σ) (calls : List (Call σ)) (c : Call σ) :
    session service e (calls ++ [c]) = call service (session service e calls) c := by
  rw [session, List.foldl_append]
  rfl

/-! ## Rebuilds -/

/-- One call preserves that the grid is the one that would be built. -/
theorem isBuilt_call (service : Service σ) (h : e.IsBuilt) (hwithin : e.Within) (c : Call σ) :
    (call service e c).IsBuilt := by
  cases c with
  | perform op => exact isBuilt_perform service h hwithin op
  | withOverlay overlay => exact isBuilt_rebuilt _
  | withStore store => exact h

/-- After a session the grid is the one that would be built, as long as every table on the way
    declares no more than the options allow. -/
theorem isBuilt_session (service : Service σ) (hstart : Started e) (calls : List (Call σ))
    (hwithin : ∀ done, done <+: calls → (session service e done).Within) :
    (session service e calls).IsBuilt := by
  induction calls using List.reverseRecOn with
  | nil => exact hstart.isBuilt
  | append_singleton calls c ih =>
    have hbefore := ih fun done h => hwithin done (h.trans (List.prefix_append _ _))
    rw [session_concat]
    exact isBuilt_call service hbefore (hwithin calls (List.prefix_append _ _)) c

/-! ## Selections -/

theorem hasShape_call (service : Service σ) (h : e.HasShape) (c : Call σ) :
    (call service e c).HasShape := by
  cases c with
  | perform op => exact hasShape_perform service h op
  | withOverlay overlay => exact (isBuilt_rebuilt _).hasShape
  | withStore store => exact h

/-- A call keeps an engine steady.  Where editors are attended this leaves out the calls that build
    the grid anew from something else. -/
theorem steady_call (service : Service σ) (h : e.Steady attended) (hshape : e.HasShape)
    {c : Call σ} (hc : attended → c.regrids = false) : (call service e c).Steady attended := by
  cases c with
  | perform op => exact steady_perform service h hshape hc
  | withOverlay overlay => exact steady_rebuilt _ fun hattended => Bool.noConfusion (hc hattended)
  | withStore store => exact ⟨h.settled, h.rests, h.attends⟩

/-- At first nothing is edited or selected. -/
theorem Started.idle (h : Started e) :
    e.editor = .idle ∧ e.cursor.selection = none ∧ e.stale = false := by
  induction h with
  | opened => exact ⟨rfl, rfl, rfl⟩
  | withOverlay overlay _ ih => exact ⟨ih.1, Cursor.revalidate_of_none _ ih.2.1, rfl⟩

theorem Started.steady (h : Started e) : e.Steady attended := by
  have hattends : attended → ∀ p, e.editor.editing? = some p → e.active? = some p := by
    rw [h.idle.1]
    exact fun _ _ hp => nomatch hp
  cases h with
  | opened => exact steady_rebuilt _ hattends
  | withOverlay => exact steady_rebuilt _ hattends

/-- After any session the cursor rests on a settled grid, which has the shape of a rebuild. -/
theorem steady_session (service : Service σ) (hstart : Started e) (calls : List (Call σ)) :
    (session service e calls).Steady False ∧ (session service e calls).HasShape := by
  induction calls using List.reverseRecOn with
  | nil => exact ⟨hstart.steady, hstart.isBuilt.hasShape⟩
  | append_singleton calls c ih =>
    obtain ⟨hsteady, hshape⟩ := ih
    rw [session_concat]
    exact ⟨steady_call service hsteady hshape False.elim, hasShape_call service hshape c⟩

/-- Whatever is done with an engine, and whatever the service answers, the active cell and the
    anchor of a selection are cells of the grid that no other cell covers. -/
theorem rests_session (service : Service σ) (hstart : Started e) (calls : List (Call σ)) :
    ∀ s, (session service e calls).cursor.selection = some s →
      s.active ∈ (session service e calls).grid.owners ∧
        s.anchor ∈ (session service e calls).grid.owners :=
  (steady_session service hstart calls).1.rests

/-- A selected cell that becomes covered gives way to the cell that covers it. -/
theorem rests_session_covered :
    let e := session Document.service (opened (.ofSize 2 2) (.ofSize 2 2) {})
      [.perform (.interact (.select ⟨0, 0⟩ false)),
        .perform (.interact (.move .right true)),
        .perform (.changeAttributes (.set "colspan" "2"))]
    e.cursor.selection = some ⟨⟨0, 0⟩, ⟨0, 0⟩⟩ ∧ ⟨0, 0⟩ ∈ e.grid.owners := by
  intro e
  have hselection : e.cursor.selection = some ⟨⟨0, 0⟩, ⟨0, 0⟩⟩ := by decide +kernel
  exact ⟨hselection, (rests_session Document.service (.opened _ _ _) _ _ hselection).1⟩

/-! ## Open editors -/

/-- Whether an open editor is on the active cell, which is an owner. -/
def Attends (e : Engine σ) : Prop :=
  e.editor.phase.isEditing = true → ∃ draft, e.editor.draft? = some draft ∧
    draft.coord ∈ e.grid.owners ∧ e.active? = some draft.coord

/-- Whether a grid has a place for what is edited and selected: the cell being edited is an owner
    there, and the anchor is not lost. -/
def HasPlaceOn (e : Engine σ) (g : Grid) : Prop :=
  ∀ p, e.editor.editing? = some p →
    p ∈ g.owners ∧ ∀ s, e.cursor.selection = some s → g.contains s.anchor = true

theorem attends_iff : e.Attends ↔
    ∀ p, e.editor.editing? = some p → p ∈ e.grid.owners ∧ e.active? = some p := by
  unfold Attends Editor.editing?
  rw [← e.editor.aligned]
  cases e.editor.draft? <;> simp

/-- With the cursor resting, an editor on the active cell is on an owner. -/
theorem Steady.attends_iff_steady (h : e.Steady attended) : e.Attends ↔ e.Steady True := by
  rw [attends_iff]
  constructor
  · exact fun hattends => ⟨h.settled, h.rests, fun _ p hp => (hattends p hp).2⟩
  · intro htrue p hp
    have hactive := htrue.attends trivial p hp
    obtain ⟨s, hs, rfl⟩ := Option.map_eq_some_iff.1 hactive
    exact ⟨(h.rests s hs).1, hactive⟩

/-- Building the grid anew leaves the editor on the active cell if there is a place for it. -/
theorem Steady.attends_rebuilt_iff (h : e.Steady True) (hcursor : e'.cursor = e.cursor)
    (heditor : e'.editor = e.editor) :
    (rebuilt e').Attends ↔ e.HasPlaceOn (rebuilt e').grid := by
  rw [attends_iff]
  refine forall_congr' fun p => ?_
  show (e'.editor.editing? = some p → _) ↔ _
  rw [heditor]
  refine imp_congr_right fun hp => and_congr_right fun howner => ?_
  show (e'.cursor.revalidate (rebuilt e').grid).active? = some p ↔ _
  rw [hcursor]
  exact Cursor.active?_revalidate_iff howner (h.attends trivial p hp)

/-- A call that builds the grid anew touches neither cursor nor editor itself, or does nothing. -/
theorem regrids_cases (service : Service σ) (e : Engine σ) {c : Call σ} (hc : c.regrids = true) :
    call service e c = e ∨ ∃ e' : Engine σ, call service e c = rebuilt e' ∧
      e'.cursor = e.cursor ∧ e'.editor = e.editor := by
  cases c with
  | withOverlay overlay => exact .inr ⟨_, rfl, rfl, rfl⟩
  | withStore store => cases hc
  | perform op =>
    cases op with
    | changeAttributes request =>
      rcases changeAttributes_cases e request with heq | ⟨selection, -, heq⟩
      · exact .inl heq
      · exact .inr ⟨_, heq, rfl, rfl⟩
    | replaceTable table => exact .inr ⟨_, rfl, rfl, rfl⟩
    | _ => cases hc

/-- While the editor is on the active cell, nothing but a grid without a place for it can take it
    off. -/
theorem attends_call_iff (service : Service σ) (h : e.Steady True) (hshape : e.HasShape)
    (c : Call σ) :
    (call service e c).Attends ↔ (c.regrids = true → e.HasPlaceOn (call service e c).grid) := by
  cases hc : c.regrids with
  | false =>
    have hsteady := steady_call service h hshape fun _ => hc
    exact iff_of_true (hsteady.attends_iff_steady.2 hsteady) fun h => nomatch h
  | true =>
    rw [imp_iff_right rfl]
    rcases regrids_cases service e hc with heq | ⟨e', heq, hcursor, heditor⟩
    · rw [heq]
      refine iff_of_true (h.attends_iff_steady.2 h) fun p hp => ?_
      refine ⟨(attends_iff.1 (h.attends_iff_steady.2 h) p hp).1, fun s hs => ?_⟩
      exact Grid.contains_of_mem_owners (h.rests s hs).2
    · rw [heq]
      exact h.attends_rebuilt_iff hcursor heditor

/-- All along a session an open editor is on the active cell, an owner of the grid, if and only if
    every grid that is built anew from another table or overlay has a place for the cell being
    edited and the anchor. -/
theorem attends_session_iff (service : Service σ) (hstart : Started e) (calls : List (Call σ)) :
    (∀ done, done <+: calls → (session service e done).Attends) ↔
      ∀ done c, done ++ [c] <+: calls → c.regrids = true →
        (session service e done).HasPlaceOn (session service e (done ++ [c])).grid := by
  have hsteady := steady_session service hstart
  constructor
  · intro hall done c hprefix
    have hattends := hall done ((List.prefix_append _ _).trans hprefix)
    have hdone := (hsteady done).1.attends_iff_steady.1 hattends
    have hnext := hall _ hprefix
    rw [session_concat] at hnext ⊢
    exact (attends_call_iff service hdone (hsteady done).2 c).1 hnext
  · intro hplaces done
    -- The editor is where it should be after each call if it was before.
    induction done using List.reverseRecOn with
    | nil =>
      have hopened : e.Steady True := hstart.steady
      exact fun _ => hopened.attends_iff_steady.2 hopened
    | append_singleton done c ih =>
      intro hprefix
      have hattends := ih ((List.prefix_append _ _).trans hprefix)
      have hdone := (hsteady done).1.attends_iff_steady.1 hattends
      have hplace := hplaces done c hprefix
      rw [session_concat] at hplace ⊢
      exact (attends_call_iff service hdone (hsteady done).2 c).2 hplace

/-- New colours leave an open editor where it is. -/
theorem attends_session_coloured :
    let calls : List (Call Table) :=
      [.perform (.interact (.select ⟨0, 1⟩ false)), .perform (.interact (.key .f2)),
        .perform (.changeAttributes (.set "color" "red"))]
    ∀ done, done <+: calls →
      (session Document.service (opened (.ofSize 1 2) (.ofSize 1 2) {}) done).Attends := by
  intro calls
  refine (attends_session_iff _ (.opened _ _ _) calls).2 ?_
  intro done c hprefix hregrids p hp
  -- Only the last call builds the grid anew.
  have hlast : done = calls.take 2 ∧ c = .perform (.changeAttributes (.set "color" "red")) := by
    match done with
    | [] =>
      obtain ⟨rfl, -⟩ := List.cons_prefix_cons.1 hprefix
      cases hregrids
    | [_] =>
      obtain ⟨-, hprefix⟩ := List.cons_prefix_cons.1 hprefix
      obtain ⟨rfl, -⟩ := List.cons_prefix_cons.1 hprefix
      cases hregrids
    | [_, _] =>
      obtain ⟨hfirst, hprefix⟩ := List.cons_prefix_cons.1 hprefix
      obtain ⟨hsecond, hprefix⟩ := List.cons_prefix_cons.1 hprefix
      rw [hfirst, hsecond]
      exact ⟨rfl, (List.cons_prefix_cons.1 hprefix).1⟩
    | _ :: _ :: _ :: done =>
      have hlength := hprefix.length_le
      simp only [List.length_append, List.length_cons, List.length_nil, calls] at hlength
      omega
  obtain ⟨rfl, rfl⟩ := hlast
  have hediting : (session Document.service (opened (.ofSize 1 2) (.ofSize 1 2) {})
      (calls.take 2)).editor.editing? = some ⟨0, 1⟩ := by decide +kernel
  have hselection : (session Document.service (opened (.ofSize 1 2) (.ofSize 1 2) {})
      (calls.take 2)).cursor.selection = some ⟨⟨0, 1⟩, ⟨0, 1⟩⟩ := by decide +kernel
  rw [hediting, Option.some.injEq] at hp
  subst hp
  refine ⟨by decide +kernel, fun s hs => ?_⟩
  rw [hselection, Option.some.injEq] at hs
  subst hs
  decide +kernel

/-- A smaller table leaves an open editor behind on a cell that is gone. -/
theorem not_attends_replaced :
    let e := session Document.service
      (opened { rows := [{ cells := [.plain (.text "a"), .plain (.text "b")] }] } (.ofSize 1 2) {})
      [.perform (.interact (.select ⟨0, 1⟩ false)), .perform (.interact (.key .f2)),
        .perform (.replaceTable { rows := [{ cells := [.plain (.text "a")] }] })]
    e.editor.phase = .inline ∧ e.editor.editing? = some ⟨0, 1⟩ ∧
      e.grid.contains ⟨0, 1⟩ = false ∧ e.active? = none := by
  decide +kernel

end Engine

end TableGrid
