import TableGrid.Proofs.Cursor.Leaving
import TableGrid.Proofs.Engine.Steady

/-!
# The enter key

While a cell is edited inline, the enter key saves the draft, moves on and opens the editor again.
It should go down, and right from a cell that reaches the last row.  The key looks at the row that
the cell starts in only: from a high cell that reaches the last row from further above it goes down,
across the border of the grid and up to the first row again.

## Key results

- `Cursor.exists_move`: from a cell of the grid a move leads somewhere
- `handleKey_enter_eq`: the enter key saves the draft and moves
- `commitDraft_bind_openEditor`: a move between closing the editor and opening it again
- `handleKey_enter_iff`: where the enter key leads, and when it goes the wrong way
-/

namespace TableGrid

namespace Grid

/-- Where the enter key should lead from a cell: right if the cell reaches the last row, or else
    down. -/
def onward (g : Grid) (p : Coord) : Direction := if g.AtEdge .down p then .right else .down

/-- Where the enter key leads from a cell: right if the cell starts in the last row, or else
    down. -/
def enterWay (g : Grid) (p : Coord) : Direction := if g.height ≤ p.row + 1 then .right else .down

/-- Whether a cell reaches the last row but starts above it. -/
def HangsDown (g : Grid) (p : Coord) : Prop := p.row + 1 < g.height ∧ g.AtEdge .down p

theorem atEdge_down_iff {g : Grid} {p : Coord} :
    g.AtEdge .down p ↔ g.height ≤ p.row + (g.cellAt p).height := Iff.rfl

/-- A cell that starts in the last row reaches it, and only there the two ways agree. -/
theorem enterWay_eq_onward_iff (g : Grid) (p : Coord) :
    g.enterWay p = g.onward p ↔ ¬g.HangsDown p := by
  have hpos := (g.cellAt p).height_pos
  unfold enterWay onward HangsDown
  split
  -- Starting in the last row it reaches it, being at least one row high.
  · have hedge : g.AtEdge .down p := atEdge_down_iff.2 (by omega)
    rw [if_pos hedge]
    exact iff_of_true rfl fun h => by omega
  · split
    · rename_i hedge
      exact iff_of_false Direction.noConfusion (not_not_intro ⟨by omega, hedge⟩)
    · rename_i hinner
      exact iff_of_true rfl fun h => hinner h.2

end Grid

namespace Cursor

variable {c : Cursor} {g : Grid} {active p : Coord} {d : Direction}

/-- From a cell of the grid a move leads somewhere. -/
theorem exists_move (hactive : c.active? = some active) (hin : g.contains active = true)
    (d : Direction) (extend : Bool) :
    ∃ target cursor, c.move g d extend = (some target, cursor) ∧ cursor.active? = some target := by
  have hsource : g.contains (c.source g active d.axis) = true := by
    rw [Grid.contains_iff] at hin ⊢
    simp only [source]
    omega
  obtain ⟨owner, howner⟩ := Grid.owner?_isSome hsource
  obtain ⟨target, -, heq⟩ :=
    move_eq_of_owner? hactive howner (Grid.contains_owner howner) extend
  exact ⟨target, _, heq, active?_place⟩

/-- A move down that starts at the active cell leads from the last row to the first one. -/
theorem move_down_of_atEdge (hactive : c.active? = some active)
    (hstart : g.owner? (c.source g active .vertical) = some active)
    (hedge : g.AtEdge .down active) (extend : Bool) :
    (c.move g .down extend).1 = g.owner? ⟨0, (c.source g active .vertical).col⟩ := by
  have hnext : nextIndex g .down active = 0 := if_neg (Nat.not_lt.2 hedge)
  obtain ⟨target, htarget, heq⟩ :=
    move_eq_of_owner? (d := .down) hactive hstart (Grid.contains_owner hstart) extend
  rw [hnext] at htarget
  rw [heq]
  exact htarget.symm

end Cursor

namespace Engine

variable {σ : Type} {service : Service σ} {e e₁ : Engine σ} {draft : Draft}
  {outcome : Option SaveOutcome}

/-- Whether the inline editor is open on the active cell, which is an owner. -/
structure EditsActive (e : Engine σ) (draft : Draft) : Prop where
  editor : e.editor = .inline draft
  active : e.active? = some draft.coord
  owner : draft.coord ∈ e.grid.owners

/-! ## The key -/

theorem enterDirection_eq (h : e.editor = .inline draft) :
    enterDirection e =
      if e.stale then .error (.failed .stale) e else .ok (e.grid.enterWay draft.coord) e := by
  have hediting : e.editor.editing? = some draft.coord := by
    rw [h]
    rfl
  simp only [enterDirection, bind_apply, get_apply, hediting, freshGrid, ensureFresh_apply]
  cases e.stale <;> rfl

/-- The enter key saves the draft, moves and opens the editor again, unless the grid is stale. -/
theorem handleKey_enter_eq (service : Service σ) (h : e.EditsActive draft) :
    handleKey service (.enter false) e =
      if e.stale then .error (.failed .stale) e
      else (commitDraft service >>= fun _ => ensureFresh >>= fun _ =>
        step (e.grid.enterWay draft.coord) false >>= openEditor service) e := by
  have hinline := phase_of_inline h.editor
  have hactive : e.active?.isSome := by
    rw [h.active]
    rfl
  rw [handleKey, bind_apply, get_apply]
  simp only [hinline, reduceCtorEq, if_false, if_true]
  -- The way is worked out on the grid before the save.
  rw [bind_apply, enterDirection_eq h.editor]
  cases e.stale with
  | true => rfl
  | false => exact travel_of_inline service h.editor hactive _ _

/-! ## The steps -/

/-- A draft that was not changed is not saved. -/
theorem commitDraft_of_unmodified (heditor : e.editor = .inline draft)
    (h : draft.isModified = false) :
    commitDraft service e = .ok none { e with editor := .selected } := by
  simp only [commitDraft, bind_apply, finishEditing_of_inline heditor, h, Bool.not_false, if_true,
    pure_apply]

/-- Closing the editor does not settle a stale grid. -/
theorem stale_commitDraft (h : commitDraft service e = .ok outcome e₁) : e₁.stale = e.stale := by
  have hsheet := congrArg Sheet.stale (sheet_commitDraft service e)
  rw [after_eq_of_ok h] at hsheet
  refine hsheet.trans ?_
  cases e.editor.commit? with
  | none => rfl
  | some save => exact (unchanged_save service e save.1 save.2).2

theorem openEditor_of_closed {p : Coord} {content : Content} {store : σ}
    (hclosed : e.editor.editing? = none)
    (hload : service.load p e.store = (.answered content, store)) :
    openEditor service p e =
      .ok () { e with store, editor := .inline (.opened p content.display) } := by
  have hopen : e.editor.openInline (.opened p content.display) =
      .ok (.inline (.opened p content.display)) := by
    cases heditor : e.editor with
    | idle => rfl
    | selected => rfl
    | inline draft =>
      rw [heditor] at hclosed
      cases hclosed
    | expanded draft =>
      rw [heditor] at hclosed
      cases hclosed
  simp only [openEditor, bind_apply, ask_of_answered hload, edit_eq, hopen]

/-- The cursor moves as it would have moved before the draft was saved. -/
theorem commitDraft_bind_openEditor (hfresh : e.stale = false)
    (hcommit : commitDraft service e = .ok outcome e₁) {direction : Direction} {target : Coord}
    {cursor : Cursor} (hmove : e.cursor.move e.grid direction false = (some target, cursor))
    {content : Content} {store : σ}
    (hload : service.load target e₁.store = (.answered content, store)) :
    (commitDraft service >>= fun _ => ensureFresh >>= fun _ =>
        step direction false >>= openEditor service) e =
      .ok () { e₁ with store, cursor, editor := .inline (.opened target content.display) } := by
  have hends := undisturbed_commitDraft service e
  rw [Ends, hcommit] at hends
  obtain ⟨hundisturbed, hclosed⟩ := hends
  -- The save has written a content only, and moves do not depend on contents.
  have hmove₁ : e₁.cursor.move e₁.grid direction false = (some target, cursor) := by
    rw [hundisturbed.cursor, Cursor.move_congr hundisturbed.shape, hmove]
  have hopen : openEditor service target { e₁ with cursor } =
      .ok () { e₁ with store, cursor, editor := .inline (.opened target content.display) } :=
    openEditor_of_closed hclosed hload
  have hensure : ensureFresh e₁ = .ok () e₁ := by
    rw [ensureFresh_apply, stale_commitDraft hcommit, hfresh]
    rfl
  simp only [bind_apply, hcommit, hensure, step, get_apply, hmove₁, set_apply, orFail_some, hopen]

/-- Where nothing is to be saved, the key leads where the move does. -/
theorem handleKey_enter_of_unmodified (h : e.EditsActive draft)
    (hmodified : draft.isModified = false) (hfresh : e.stale = false)
    {target : Coord} {cursor : Cursor}
    (hmove : e.cursor.move e.grid (e.grid.enterWay draft.coord) false = (some target, cursor))
    {content : Content} {store : σ}
    (hload : service.load target e.store = (.answered content, store)) :
    handleKey service (.enter false) e =
      .ok () { e with store, cursor, editor := .inline (.opened target content.display) } := by
  rw [handleKey_enter_eq service h, if_neg (by rw [hfresh]; decide)]
  have hcommit : commitDraft service e = _ := commitDraft_of_unmodified h.editor hmodified
  exact commitDraft_bind_openEditor hfresh hcommit hmove hload

/-- With the inline editor open on the active cell, let closing the editor succeed.  Unless the grid
    is stale, the enter key then opens the editor on the cell that a move from the active cell leads
    to, if that can be loaded: a move right if the active cell starts in the last row, or else down.
    This is where the key should lead if and only if the active cell does not reach the last row
    from further above.  If it does, the key leads down from the last row to the first one, wherever
    the move starts at the active cell. -/
theorem handleKey_enter_iff (service : Service σ) (h : e.EditsActive draft)
    (hcommit : commitDraft service e = .ok outcome e₁) :
    let o := draft.coord
    let way := e.grid.enterWay o
    let start := e.cursor.source e.grid o .vertical
    (e.stale = true → handleKey service (.enter false) e = .error (.failed .stale) e) ∧
      (∃ target cursor, e.cursor.move e.grid way false = (some target, cursor) ∧
        cursor.active? = some target ∧
        (e.stale = false → ∀ content store,
          service.load target e₁.store = (.answered content, store) →
            handleKey service (.enter false) e = .ok ()
              { e₁ with store, cursor, editor := .inline (.opened target content.display) })) ∧
      (way = e.grid.onward o ↔ ¬e.grid.HangsDown o) ∧
      (e.grid.HangsDown o → e.grid.owner? start = some o →
        way = .down ∧ (e.cursor.move e.grid way false).1 = e.grid.owner? ⟨0, start.col⟩) := by
  intro o way start
  refine ⟨fun hstale => ?_, ?_, Grid.enterWay_eq_onward_iff _ _, fun hhangs hstart => ?_⟩
  · rw [handleKey_enter_eq service h, if_pos hstale]
  · obtain ⟨target, cursor, hmove, hactive⟩ :=
      Cursor.exists_move h.active (Grid.contains_of_mem_owners h.owner) way false
    refine ⟨target, cursor, hmove, hactive, fun hfresh content store hload => ?_⟩
    rw [handleKey_enter_eq service h, if_neg (by rw [hfresh]; decide)]
    exact commitDraft_bind_openEditor hfresh hcommit hmove hload
  · have hway : way = .down := if_neg (Nat.not_le.2 hhangs.1)
    refine ⟨hway, ?_⟩
    rw [hway]
    exact Cursor.move_down_of_atEdge h.active hstart hhangs.2 false

/-- From the last row of a table without spans the key leads right. -/
theorem handleKey_enter_iff_last_row :
    let e := run Document.service (opened (.ofSize 2 2) (.ofSize 2 2) {})
      [.interact (.select ⟨1, 0⟩ false), .interact (.key .f2)]
    ∃ cursor, cursor.active? = some ⟨1, 1⟩ ∧
      handleKey Document.service (.enter false) e =
        .ok () { e with cursor, editor := .inline (.opened ⟨1, 1⟩ "") } := by
  intro e
  have hedits : e.EditsActive ⟨⟨1, 0⟩, "", ""⟩ :=
    ⟨by decide +kernel, by decide +kernel, by decide +kernel⟩
  have htarget : (e.cursor.move e.grid (e.grid.enterWay ⟨1, 0⟩) false).1 = some ⟨1, 1⟩ := by
    decide +kernel
  have hcommit : commitDraft Document.service e = .ok none { e with editor := .selected } :=
    commitDraft_of_unmodified hedits.editor (by decide)
  obtain ⟨-, ⟨target, cursor, hmove, hactive, hreopens⟩, -⟩ :=
    handleKey_enter_iff Document.service hedits hcommit
  rw [hmove, Option.some.injEq] at htarget
  subst htarget
  have hcontent : e.store.content ⟨1, 1⟩ = .empty := by decide +kernel
  refine ⟨cursor, hactive, (hreopens (by decide +kernel) .empty e.store ?_).trans rfl⟩
  rw [← hcontent]
  rfl

/-- A cell of two rows that ends in the last one: the key leads up to the first row, and not to the
    cell on the right. -/
theorem handleKey_enter_wraps :
    let high : Patch := { content := some (.text "c"), rowspan := some 2 }
    let t : Table :=
      { rows := [{ cells := [.plain (.text "a"), .plain (.text "b")] },
          { cells := [.styled high, .plain (.text "d")] },
          { cells := [.plain .empty, .plain (.text "f")] }] }
    let e := run Document.service (opened t t {})
      [.interact (.select ⟨1, 0⟩ false), .interact (.key .f2)]
    e.EditsActive ⟨⟨1, 0⟩, "c", "c"⟩ ∧ e.grid.AtEdge .down ⟨1, 0⟩ ∧
      (e.cursor.move e.grid .right false).1 = some ⟨1, 1⟩ ∧
      ∃ e', handleKey Document.service (.enter false) e = .ok () e' ∧
        e'.active? = some ⟨0, 0⟩ ∧ e'.editor = .inline ⟨⟨0, 0⟩, "a", "a"⟩ := by
  intro high t e
  have hedits : e.EditsActive ⟨⟨1, 0⟩, "c", "c"⟩ :=
    ⟨by decide +kernel, by decide +kernel, by decide +kernel⟩
  have hfresh : e.stale = false := by decide +kernel
  have hway : e.grid.enterWay ⟨1, 0⟩ = .down := by decide +kernel
  obtain ⟨cursor, hmove, hactive⟩ : ∃ cursor,
      e.cursor.move e.grid .down false = (some ⟨0, 0⟩, cursor) ∧ cursor.active? = some ⟨0, 0⟩ :=
    ⟨{ selection := some (.single ⟨0, 0⟩), lock := some ⟨.vertical, 0⟩ }, by decide +kernel, rfl⟩
  have hload : Document.service.load ⟨0, 0⟩ e.store = (.answered (.text "a"), e.store) := by
    decide +kernel
  have hkey := handleKey_enter_of_unmodified hedits (by decide) hfresh (hway ▸ hmove) hload
  exact ⟨hedits, by decide +kernel, by decide +kernel, _, hkey, hactive, rfl⟩

end Engine

end TableGrid
