import TableGrid.Proofs.Content
import TableGrid.Proofs.Engine.Built
import TableGrid.Proofs.Engine.History

/-!
# Answers to saves

The answer to a save is brought in if and only if its ticket is outstanding, the grid is fresh and
the cell still shows what the ticket brought there.  Then the grid and the overlay have the
persisted content; otherwise they stay as they are.

For the overlay this takes that the cell lies within the limits of the options.  Beyond them an
entry is not shown, so an attribute edit of the entry goes unnoticed.

## Key results

- `isMirrored_perform`: entries within the limits are shown, and saves under way have one
- `accepts_iff_outstanding`: which answers are brought in
- `finishSave_run`: what an answer does after any run
-/

namespace TableGrid

namespace Engine

variable {σ : Type} {service : Service σ} {e : Engine σ}

/-- Whether the overlay is seen in the grid: within the limits the content of an entry is the one
    shown, and cells with a save under way have an entry with a content. -/
structure IsMirrored (e : Engine σ) : Prop where
  shown : ∀ p c cell, e.options.admits p = true → e.overlay.contentAt? p = some c →
    e.grid.get? p = some cell → cell.content = c
  carried : ∀ p, e.saves.latest[p]?.isSome → (e.overlay.contentAt? p).isSome

theorem isMirrored_of_sheet {e e' : Engine σ} (h : e'.sheet = e.sheet) (hm : e.IsMirrored) :
    e'.IsMirrored := by
  have hgrid : e'.grid = e.grid := congrArg Sheet.grid h
  have hoverlay : e'.overlay = e.overlay := congrArg Sheet.overlay h
  have hoptions : e'.options = e.options := congrArg Sheet.options h
  have hsaves : e'.saves = e.saves := congrArg Sheet.saves h
  constructor
  · rw [hgrid, hoverlay, hoptions]
    exact hm.shown
  · rw [hsaves, hoverlay]
    exact hm.carried

theorem IsMirrored.withStore (hm : e.IsMirrored) (store : σ) :
    ({ e with store } : Engine σ).IsMirrored := ⟨hm.shown, hm.carried⟩

/-- A rebuild shows all entries. -/
theorem isMirrored_rebuilt (hfits : e.options.Fits)
    (hcarried : ∀ p, e.saves.latest[p]?.isSome → (e.overlay.contentAt? p).isSome) :
    (rebuilt e).IsMirrored := by
  refine ⟨?_, hcarried⟩
  intro p c cell hadm hc hcell
  have hcell' : (e.table.grid [e.overlay] e.options).get? p = some cell := hcell
  have hshown : ((e.table.grid [e.overlay] e.options).cellAt p).content = c :=
    Table.content_of_overlay hadm (Options.fits_of_admits hfits hadm) hc
  rwa [Grid.cellAt, hcell'] at hshown

/-! ## Saves -/

/-- A content written into the grid and the overlay. -/
theorem shown_setContent (hm : e.IsMirrored) (p : Coord) (c : Content) :
    ∀ q d cell, e.options.admits q = true → (e.overlay.setContent p c).contentAt? q = some d →
      (e.grid.setContent p c).get? q = some cell → cell.content = d := by
  intro q d cell hadm hd hcell
  rw [Grid.get?_setContent] at hcell
  -- For other cells neither the entry nor the cell has changed.
  by_cases heq : p = q
  · subst heq
    rw [Overlay.contentAt?_setContent, Option.some.injEq] at hd
    rw [if_pos rfl, Option.map_eq_some_iff] at hcell
    obtain ⟨_, -, rfl⟩ := hcell
    exact hd
  · rw [Overlay.contentAt?_setContent_of_ne _ _ heq] at hd
    rw [if_neg heq] at hcell
    exact hm.shown q d cell hadm hd hcell

theorem IsMirrored.begun (hm : e.IsMirrored) (p : Coord) (c : Content) :
    (e.begun p c).IsMirrored := by
  refine ⟨shown_setContent hm p c, ?_⟩
  intro q hq
  change (e.overlay.setContent p c).contentAt? q |>.isSome
  change (e.saves.latest.insert p (e.saves.issued + 1))[q]?.isSome at hq
  rw [Std.ExtTreeMap.getElem?_insert] at hq
  split at hq
  · rename_i heq
    rw [Std.compare_eq_iff_eq] at heq
    rw [← heq, Overlay.contentAt?_setContent]
    rfl
  · exact Overlay.isSome_contentAt?_setContent c (hm.carried q hq)

theorem isSome_latest_complete {s : Saves} {t : Ticket} {p : Coord}
    (h : (s.complete t).latest[p]?.isSome) : s.latest[p]?.isSome := by
  obtain ⟨n, hn⟩ := Option.isSome_iff_exists.1 h
  rw [(Saves.latest_complete.1 hn).1]
  rfl

theorem IsMirrored.finished (hm : e.IsMirrored) (t : Ticket) (persisted : Content) :
    (e.finished t persisted).IsMirrored := by
  unfold Engine.finished
  split
  · refine ⟨shown_setContent hm t.coord persisted, ?_⟩
    intro q hq
    exact Overlay.isSome_contentAt?_setContent persisted (hm.carried q (isSome_latest_complete hq))
  · exact ⟨hm.shown, fun q hq => hm.carried q (isSome_latest_complete hq)⟩

theorem IsMirrored.refused (hm : e.IsMirrored) (p : Coord) : (e.refused p).IsMirrored := by
  refine ⟨hm.shown, ?_⟩
  intro q hq
  change (e.saves.latest.erase p)[q]?.isSome at hq
  rw [Std.ExtTreeMap.getElem?_erase] at hq
  split at hq
  · cases hq
  · exact hm.carried q hq

theorem isMirrored_save (service : Service σ) (hm : e.IsMirrored) (p : Coord) (c : Content) :
    (after (save service p c) e).IsMirrored := by
  rcases after_save_cases service e p c with
    ⟨-, heq⟩ | ⟨-, store, ⟨persisted, -, heq⟩ | ⟨cause, -, heq⟩ | ⟨-, heq⟩⟩
  · rw [heq]
    exact hm
  · rw [heq]
    exact ((hm.begun p c).withStore store).finished _ persisted
  · rw [heq]
    exact (hm.refused p).withStore store
  · rw [heq]
    exact (hm.begun p c).withStore store

/-! ## All operations -/

theorem not_isSome_latest_clear (s : Saves) (p : Coord) : ¬s.clear.latest[p]?.isSome := by
  simp [Saves.clear]

theorem isMirrored_reshape (service : Service σ) (hm : e.IsMirrored) (hfits : e.options.Fits)
    (r : Reshape) : (after (reshape service r) e).IsMirrored := by
  -- Saves under way are given up, so no entry is asked for.
  have hnone : ∀ (o : Overlay) p, e.saves.clear.latest[p]?.isSome → (o.contentAt? p).isSome :=
    fun o p hp => absurd hp (not_isSome_latest_clear _ _)
  obtain ⟨store, ⟨table, -, heq⟩ | ⟨cause, -, heq⟩ | ⟨-, heq⟩⟩ := reshape_cases service r e
  · rw [heq]
    exact isMirrored_rebuilt hfits (hnone _)
  · rw [heq]
    exact ⟨hm.shown, hnone _⟩
  · rw [heq]
    exact ⟨hm.shown, hnone _⟩

theorem isSome_contentAt?_change (request : AttributeRequest) (cells : List Coord) {o : Overlay}
    {q : Coord} (h : (o.contentAt? q).isSome) :
    ((cells.foldl request.change o).contentAt? q).isSome := by
  induction cells generalizing o with
  | nil => exact h
  | cons p cells ih =>
    refine ih ?_
    cases request with
    | set name text => exact Overlay.isSome_contentAt?_setAttribute name text h
    | clear name =>
      rw [AttributeRequest.change, Overlay.contentAt?_clearAttribute]
      exact h
    | clearAll =>
      rw [AttributeRequest.change, Overlay.contentAt?_clearAttributes]
      exact h

/-- One operation preserves that the overlay is seen in the grid. -/
theorem isMirrored_perform (service : Service σ) (hm : e.IsMirrored) (hfits : e.options.Fits)
    (op : Operation) : (perform service e op).IsMirrored := by
  cases op with
  | interact i =>
    refine isMirrored_of_sheet (sheet_interact service e i) ?_
    cases i.saving? e with
    | none => exact hm
    | some save => exact isMirrored_save service hm save.1 save.2
  | beginSave p c =>
    rw [perform, after_beginSave]
    split
    · exact hm.begun p c
    · exact hm
  | finishSave ticket persisted =>
    rw [perform, after_finishSave]
    exact hm.finished ticket persisted
  | abandonSave ticket => exact ⟨hm.shown, fun q hq => hm.carried q (isSome_latest_complete hq)⟩
  | changeShape request =>
    rw [perform, changeShape_eq]
    split
    · exact isMirrored_reshape service hm hfits _
    · exact hm
  | changeAttributes request =>
    rw [perform]
    rcases changeAttributes_cases e request with heq | ⟨selection, -, heq⟩
    · rw [heq]
      exact hm
    · rw [heq]
      exact isMirrored_rebuilt hfits fun p hp =>
        isSome_contentAt?_change request selection.cells (hm.carried p hp)
  | rebuild => exact isMirrored_rebuilt hfits hm.carried
  | replaceTable table =>
    exact isMirrored_rebuilt hfits fun p hp => absurd hp (not_isSome_latest_clear e.saves p)

theorem Started.isMirrored (h : Started e) (hfits : e.options.Fits) : e.IsMirrored := by
  have hnone : ∀ (o : Overlay) p, (Saves.none.latest[p]?).isSome → (o.contentAt? p).isSome :=
    fun o p hp => absurd hp (not_isSome_latest_clear .none p)
  cases h with
  | opened => exact isMirrored_rebuilt hfits (hnone _)
  | withOverlay overlay h => exact isMirrored_rebuilt hfits (by rw [h.saves_eq]; exact hnone _)

theorem isMirrored_run (service : Service σ) (hm : e.IsMirrored) (hfits : e.options.Fits)
    (ops : List Operation) : (run service e ops).IsMirrored := by
  induction ops using List.reverseRecOn with
  | nil => exact hm
  | append_singleton ops op ih =>
    rw [run_concat]
    exact isMirrored_perform service ih (by rw [options_run]; exact hfits) op

/-! ## Which answers are brought in -/

/-- After a run an answer is brought in if and only if its ticket is outstanding, the grid is fresh
    and the cell still shows the content of the ticket. -/
theorem accepts_iff_outstanding (service : Service σ) (hstart : Started e) {ops : List Operation}
    {t : Ticket} (ht : .issued t ∈ history service e ops) :
    (run service e ops).accepts t = true ↔
      Outstanding (history service e ops) t ∧ (run service e ops).stale = false ∧
        ∃ cell, (run service e ops).grid.get? t.coord = some cell ∧
          cell.content.agrees t.content = true := by
  rw [accepts, Bool.and_eq_true, Bool.and_eq_true, isLatest_iff_outstanding service hstart ht,
    shows_iff, Bool.not_eq_true', and_assoc]

/-! ## What an answer leaves -/

/-- An answer that is brought in is shown. -/
theorem grid_of_accepts {t : Ticket} {persisted : Content} (h : e.accepts t = true)
    (hnumber : persisted.agrees persisted = true) :
    ∃ cell, (e.finished t persisted).grid.get? t.coord = some cell ∧
      cell.content.agrees persisted = true := by
  obtain ⟨cell, hcell, hshown⟩ := shows_iff.1 (Bool.and_eq_true_iff.1 h).2
  unfold finished
  rw [h, Bool.true_and]
  -- An answer that agrees with the ticket is shown already.
  cases hagrees : persisted.agrees t.content with
  | true => exact ⟨cell, hcell, Content.agrees_trans hshown (Content.agrees_symm hagrees)⟩
  | false =>
    refine ⟨{ cell with content := persisted }, ?_, hnumber⟩
    show (e.grid.setContent t.coord persisted).get? t.coord = _
    rw [Grid.get?_setContent, if_pos rfl, hcell]
    rfl

/-- An answer that is brought in is in the overlay, unless the entry lies beyond the limits and has
    been there already when the save began. -/
theorem overlay_of_accepts {t : Ticket} {persisted : Content} (hm : e.IsMirrored)
    (h : e.accepts t = true) (hnumber : persisted.agrees persisted = true)
    (hlimits : e.options.admits t.coord = true ∨ persisted.agrees t.content = false) :
    ∃ c, (e.finished t persisted).overlay.contentAt? t.coord = some c ∧
      c.agrees persisted = true := by
  unfold finished
  rw [h, Bool.true_and]
  -- An answer that agrees is not written, so the entry has to agree with what is shown.
  cases hagrees : persisted.agrees t.content with
  | true =>
    have hadm := hlimits.resolve_right (by rw [hagrees]; decide)
    obtain ⟨hlatest, hshows⟩ := Bool.and_eq_true_iff.1 h
    have hsaving := Saves.isLatest_iff.1 (Bool.and_eq_true_iff.1 hlatest).1
    -- The save is under way, so there is an entry with a content, and it is the one shown.
    obtain ⟨c, hc⟩ := Option.isSome_iff_exists.1 (hm.carried t.coord (by rw [hsaving]; rfl))
    obtain ⟨cell, hcell, hshown⟩ := shows_iff.1 hshows
    refine ⟨c, hc, ?_⟩
    rw [← hm.shown t.coord c cell hadm hc hcell]
    exact Content.agrees_trans hshown (Content.agrees_symm hagrees)
  | false => exact ⟨persisted, Overlay.contentAt?_setContent _ _ _, hnumber⟩

/-- What an answer does after any run.  It is brought in if and only if its ticket is outstanding,
    the grid is fresh and the cell still shows the content of the ticket.  Then the grid has the
    persisted content, and so has the overlay if the cell lies within the limits or the content is
    another one than that of the ticket.  Otherwise both stay as they are. -/
theorem finishSave_run (service : Service σ) (hstart : Started e) (hfits : e.options.Fits)
    (ops : List Operation) {t : Ticket} (ht : .issued t ∈ history service e ops)
    {persisted : Content} (hnumber : persisted.agrees persisted = true) :
    ∃ outcome e', finishSave t persisted (run service e ops) = .ok outcome e' ∧
      (outcome = .applied persisted ∨ outcome = .superseded) ∧
      (outcome = .applied persisted ↔
        Outstanding (history service e ops) t ∧ (run service e ops).stale = false ∧
          ∃ cell, (run service e ops).grid.get? t.coord = some cell ∧
            cell.content.agrees t.content = true) ∧
      (outcome = .applied persisted →
        (∃ cell, e'.grid.get? t.coord = some cell ∧ cell.content.agrees persisted = true) ∧
        (e.options.admits t.coord = true ∨ persisted.agrees t.content = false →
          ∃ c, e'.overlay.contentAt? t.coord = some c ∧ c.agrees persisted = true)) ∧
      (outcome = .superseded →
        e'.grid = (run service e ops).grid ∧ e'.overlay = (run service e ops).overlay) := by
  have hm := isMirrored_run service (hstart.isMirrored hfits) hfits ops
  have haccepts := accepts_iff_outstanding service hstart ht
  refine ⟨_, _, finishSave_eq _ t persisted, ?_⟩
  cases h : (run service e ops).accepts t with
  | true =>
    rw [if_pos rfl]
    refine ⟨.inl rfl, ⟨fun _ => haccepts.1 h, fun _ => rfl⟩, fun _ => ⟨?_, ?_⟩,
      fun hne => (by cases hne)⟩
    · exact grid_of_accepts h hnumber
    · intro hlimits
      rw [← options_run service e ops] at hlimits
      exact overlay_of_accepts hm h hnumber hlimits
  | false =>
    rw [if_neg Bool.false_ne_true]
    refine ⟨.inr rfl, ⟨fun hne => (by cases hne), fun hout => ?_⟩, fun hne => (by cases hne),
      fun _ => ?_⟩
    · rw [haccepts.2 hout] at h
      cases h
    · unfold finished
      rw [h]
      exact ⟨rfl, rfl⟩

theorem finishSave_run_overtaken :
    let e : Engine Table := opened (.ofSize 1 1) (.ofSize 1 1) {}
    let ops : List Operation :=
      [.beginSave ⟨0, 0⟩ (.text "x"), .beginSave ⟨0, 0⟩ (.text "y")]
    ∃ e', finishSave ⟨⟨0, 0⟩, 2, .text "y"⟩ (.text "Y") (run Document.service e ops) =
        .ok (.applied (.text "Y")) e' ∧
      ∃ c, e'.overlay.contentAt? ⟨0, 0⟩ = some c ∧ c.agrees (.text "Y") = true := by
  intro e ops
  have hhistory : history Document.service e ops =
      [.issued ⟨⟨0, 0⟩, 1, .text "x"⟩, .issued ⟨⟨0, 0⟩, 2, .text "y"⟩] := by
    decide +kernel
  have hissued : SaveEvent.issued ⟨⟨0, 0⟩, 2, .text "y"⟩ ∈ history Document.service e ops := by
    rw [hhistory]
    exact .tail _ (.head _)
  have hout : Outstanding (history Document.service e ops) ⟨⟨0, 0⟩, 2, .text "y"⟩ :=
    ⟨[.issued ⟨⟨0, 0⟩, 1, .text "x"⟩], [], hhistory, by simp⟩
  have hfresh : (run Document.service e ops).stale = false := by decide +kernel
  have hshown : (run Document.service e ops).grid.get? ⟨0, 0⟩ =
      some { content := .text "y", render := some ⟨0, 0⟩ } := by
    decide +kernel
  have hstart : Started e := .opened _ _ _
  have hfits : e.options.Fits := by decide +kernel
  have hnumber : (Content.text "Y").agrees (.text "Y") = true := by decide
  obtain ⟨outcome, e', heq, -, happlied, hleft, -⟩ :=
    finishSave_run Document.service hstart hfits ops hissued hnumber
  have houtcome := happlied.2 ⟨hout, hfresh, _, hshown, by decide⟩
  rw [houtcome] at heq
  exact ⟨e', heq, (hleft houtcome).2 (.inr (by decide))⟩

/-- Beyond the limits the overlay may keep another content than the one persisted: an attribute
    edit has replaced the content of the entry, but the grid still shows the one being saved. -/
theorem finishSave_beyond_limits :
    let table : Table :=
      { rows := [{ cells := [.plain (.text "a")] }, { cells := [.plain (.text "x")] }] }
    let e : Engine Table := opened table table { maxRows := 1 }
    let ops : List Operation :=
      [.interact (.select ⟨1, 0⟩ false), .beginSave ⟨1, 0⟩ (.text "x"),
        .changeAttributes (.set "cell" "z")]
    let t : Ticket := ⟨⟨1, 0⟩, 1, .text "x"⟩
    .issued t ∈ history Document.service e ops ∧
      ∃ e', finishSave t (.text "x") (run Document.service e ops) =
          .ok (.applied (.text "x")) e' ∧
        e'.overlay.contentAt? t.coord = some (.text "z") ∧
        (Content.text "z").agrees (.text "x") = false := by
  intro table e ops t
  have haccepts : (run Document.service e ops).accepts t = true := by decide +kernel
  refine ⟨by decide +kernel, (run Document.service e ops).finished t (.text "x"), ?_,
    by decide +kernel, by decide⟩
  rw [finishSave_eq, haccepts]
  rfl

end Engine

end TableGrid
