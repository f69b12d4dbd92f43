import TableGrid.Proofs.Engine.Session
import TableGrid.Proofs.Grid.Restyle

/-!
# Attributes of the selection

Attributes of the selected cells are set or cleared in the overlay, and the grid is built again.
As long as the tables stay within the limits of the options, the grid was the one of a rebuild
before, so all that changes comes from the overlay: no content does, and a property that cells may
have shows in the styles of the selected cells and nowhere else.

## Key results

- `writtenContent?_foldl_change`: the contents that the overlay writes
- `content_changeAttributes`: attributes are no contents
- `restyles_rebuilt`: a property set on the cells of a selection
- `setAttribute_restyles`: styling a selection
-/

namespace TableGrid

namespace Engine

variable {σ : Type} {e e' start : Engine σ} {s : Selection} {p : Coord} {key : Property}

/-! ## Contents -/

/-- A change of attributes keeps the content that is written on any cell, unless it is a content
    itself. -/
theorem writtenContent?_change {request : AttributeRequest}
    (h : ∀ text, request ≠ .set "cell" text) (o : Overlay) (p q : Coord) :
    (request.change o p).writtenContent? q = o.writtenContent? q := by
  cases request with
  | set name text =>
    have hname : name ≠ "cell" := by
      rintro rfl
      exact h text rfl
    exact Overlay.writtenContent?_congr (o.erase_setAttribute p name text)
      (o.contentAt?_setAttribute p hname text p) q
  | clear name =>
    exact Overlay.writtenContent?_congr (o.erase_clearAttribute p name)
      (o.contentAt?_clearAttribute p name p) q
  | clearAll =>
    exact Overlay.writtenContent?_congr (o.erase_clearAttributes p)
      (o.contentAt?_clearAttributes p p) q

theorem writtenContent?_foldl_change {request : AttributeRequest}
    (h : ∀ text, request ≠ .set "cell" text) (cells : List Coord) (o : Overlay) (q : Coord) :
    (cells.foldl request.change o).writtenContent? q = o.writtenContent? q := by
  induction cells generalizing o with
  | nil => rfl
  | cons p cells ih => exact (ih _).trans (writtenContent?_change h o p q)

/-- Whatever attribute of the selected cells is set or cleared, and even if all of them are cleared,
    no cell changes its content.  The only name that does not stand for an attribute is the one of
    the content. -/
theorem content_changeAttributes (service : Service σ) (hstart : Started start)
    (calls : List (Call σ))
    (hwithin : ∀ done, done <+: calls → (session service start done).Within)
    (hfresh : (session service start calls).stale = false)
    (hselection : (session service start calls).cursor.selection = some s)
    (request : AttributeRequest) (hrequest : ∀ text, request ≠ .set "cell" text) :
    ∃ e', request.send (session service start calls) = .ok () e' ∧
      ∀ p, (e'.grid.cellAt p).content =
        ((session service start calls).grid.cellAt p).content := by
  refine ⟨_, send_of_selection hfresh hselection request, fun p => ?_⟩
  have hbuilt := isBuilt_session service hstart calls hwithin
  rw [IsBuilt] at hbuilt
  rw [hbuilt]
  exact Table.content_grid_congr (writtenContent?_foldl_change hrequest _ _) _ _ p

/-- Clearing an entry that had nothing but attributes takes a column with it. -/
theorem content_changeAttributes_narrowed :
    let table : Table := { rows := [{ cells := [.plain (.text "a")] }] }
    let o := Overlay.empty.insert "B1" (.styled { attributes := Attributes.empty.set .color "red" })
    let start := opened table table {}
    let calls : List (Call Table) :=
      [.withOverlay o, .perform (.interact (.select ⟨0, 1⟩ false))]
    let e := session Document.service start calls
    ∃ e', AttributeRequest.clearAll.send e = .ok () e' ∧
      (∀ p, (e'.grid.cellAt p).content = (e.grid.cellAt p).content) ∧
      e.grid.width = 2 ∧ e'.grid.width = 1 := by
  intro table o start calls e
  have hstart : Started start := .opened _ _ _
  have hwithin : ∀ done, done <+: calls → (session Document.service start done).Within := by
    simp only [← List.mem_inits]
    decide +kernel
  have hselection : (session Document.service start calls).cursor.selection =
      some ⟨⟨0, 1⟩, ⟨0, 1⟩⟩ := by
    decide +kernel
  obtain ⟨e', hok, hcontent⟩ := content_changeAttributes Document.service hstart calls hwithin
    (by decide +kernel) hselection .clearAll nofun
  have hafter : after AttributeRequest.clearAll.send e = e' := after_eq_of_ok hok
  refine ⟨e', hok, hcontent, by decide +kernel, ?_⟩
  rw [← hafter]
  decide +kernel

/-! ## Styles -/

theorem freshGrid_apply (h : e.stale = false) : freshGrid e = .ok e.grid e := by
  rw [freshGrid, bind_apply, ensureFresh_apply, h]
  rfl

theorem cellStyle_apply (h : e.stale = false) (p : Coord) :
    cellStyle p e = .ok (e.table.cellStyle e.grid e.options p) e := by
  rw [cellStyle, bind_apply, freshGrid_apply h]
  rfl

theorem rowStyle_apply (h : e.stale = false) (row : Nat) :
    rowStyle row e = .ok (e.table.rowStyle e.grid row) e := by
  simp only [rowStyle, bind_apply, get_apply, freshGrid_apply h, pure_apply]

theorem colStyle_apply (h : e.stale = false) (col : Nat) :
    colStyle col e = .ok (e.table.colStyle e.grid col) e := by
  simp only [colStyle, bind_apply, get_apply, freshGrid_apply h, pure_apply]

theorem tableStyle_apply (h : e.stale = false) : tableStyle e = .ok e.table.tableStyle e := by
  rw [tableStyle, bind_apply, ensureFresh_apply, h]
  rfl

theorem isSelected_iff (hselection : e.cursor.selection = some s) :
    e.isSelected p = true ↔ p ∈ s.cells := by
  rw [isSelected, hselection, Selection.mem_cells]

/-- Whether the selected cells are given a text for a property while nothing else that is shown
    changes: no other property and no other cell, nor contents, spans, the size or the selection. -/
structure Restyles (e e' : Engine σ) (key : Property) (text : String) : Prop where
  selected : ∀ p, e.isSelected p = true → ∃ before after,
    cellStyle p e = .ok before e ∧ cellStyle p e' = .ok after e' ∧
      after.get? key = some text ∧ ∀ other, other ≠ key → after.get? other = before.get? other
  others : ∀ p, e.isSelected p = false → ∃ style,
    cellStyle p e = .ok style e ∧ cellStyle p e' = .ok style e'
  rows : ∀ row, ∃ style, rowStyle row e = .ok style e ∧ rowStyle row e' = .ok style e'
  columns : ∀ col, ∃ style, colStyle col e = .ok style e ∧ colStyle col e' = .ok style e'
  table : ∃ style, tableStyle e = .ok style e ∧ tableStyle e' = .ok style e'
  contents : ∀ p, (e'.grid.cellAt p).content = (e.grid.cellAt p).content
  height : e'.grid.height = e.grid.height
  width : e'.grid.width = e.grid.width
  /-- Spans, and which cells they cover. -/
  shape : e'.grid.map Cell.shape = e.grid.map Cell.shape
  selection : e'.cursor.selection = e.cursor.selection

/-- A property set on cells of the grid restyles them if they are the selected ones. -/
theorem restyles_of_restyle {text : String} (hfresh : e.stale = false) (hfresh' : e'.stale = false)
    (hselection : e.cursor.selection = some s) (hin : ∀ p ∈ s.cells, e.grid.contains p = true)
    (hkey : Level.cell.allows key = true) (htable : e'.table = e.table)
    (hoptions : e'.options = e.options) (hgrid : e'.grid = e.grid.restyle s.cells key text)
    (hkept : e'.cursor.selection = e.cursor.selection) : e.Restyles e' key text where
  selected p hp := by
    refine ⟨_, _, cellStyle_apply hfresh p, cellStyle_apply hfresh' p, ?_⟩
    rw [htable, hoptions, hgrid, Table.cellStyle_restyle _ _ hin hkey,
      if_pos ((isSelected_iff hselection).1 hp)]
    constructor
    · rw [Style.get?_insert, if_pos rfl]
    · intro other hother
      rw [Style.get?_insert, if_neg hother.symm]
  others p hp := by
    have hnot : p ∉ s.cells := fun hmem =>
      Bool.false_ne_true (hp.symm.trans ((isSelected_iff hselection).2 hmem))
    refine ⟨_, cellStyle_apply hfresh p, ?_⟩
    rw [cellStyle_apply hfresh', htable, hoptions, hgrid, Table.cellStyle_restyle _ _ hin hkey,
      if_neg hnot]
  rows row := by
    refine ⟨_, rowStyle_apply hfresh row, ?_⟩
    rw [rowStyle_apply hfresh', htable, hgrid, Table.rowStyle_congr _ (Grid.height_restyle _ _ _ _)]
  columns col := by
    refine ⟨_, colStyle_apply hfresh col, ?_⟩
    rw [colStyle_apply hfresh', htable, hgrid, Table.colStyle_congr _ (Grid.width_restyle _ _ _ _)]
  table := by
    refine ⟨_, tableStyle_apply hfresh, ?_⟩
    rw [tableStyle_apply hfresh', htable]
  contents p := by rw [hgrid, Grid.content_cellAt_restyle]
  height := by rw [hgrid, Grid.height_restyle]
  width := by rw [hgrid, Grid.width_restyle]
  shape := by rw [hgrid, Grid.map_shape_restyle]
  selection := hkept

/-- A property that cells may have is set on the cells of a selection. -/
theorem restyles_rebuilt (hbuilt : e.IsBuilt) (hwithin : e.Within) (hrests : e.cursor.Rests e.grid)
    (hfresh : e.stale = false) (hselection : e.cursor.selection = some s)
    (hkey : Level.cell.allows key = true) (text : String) :
    e.Restyles (rebuilt { e with
        overlay := s.cells.foldl (fun o p => o.setAttribute p key.name text) e.overlay })
      key (Overlay.reduceHash text) := by
  have hin : ∀ p ∈ s.cells, e.grid.contains p = true := fun p hp =>
    hrests.contains_of_mem_cells hselection hp
  have hgrid : e.table.grid
      [s.cells.foldl (fun o p => o.setAttribute p key.name text) e.overlay] e.options =
        e.grid.restyle s.cells key (Overlay.reduceHash text) := by
    have hbuilt : e.grid = e.table.grid [e.overlay] e.options := hbuilt
    rw [hbuilt] at hin ⊢
    exact Table.grid_foldl_setAttribute (Property.ofName?_name key) text hwithin.1 hwithin.2 hin
  refine restyles_of_restyle hfresh rfl hselection hin hkey rfl rfl hgrid ?_
  -- The cells that are selected are owners on the new grid too, since it has the same shape.
  refine Cursor.Rests.selection_revalidate (hrests.congr ?_)
  rw [hgrid, Grid.map_shape_restyle]

/-- A property that cells may have and that is set for a selection has its text, with a doubled `#`
    in front reduced to one, in the style of every selected cell, covered ones included.  All else
    is as before: the other properties of these cells, the styles of all other cells, of rows,
    columns and the table, contents, spans, the size of the grid and the selection. -/
theorem setAttribute_restyles (service : Service σ) (hstart : Started start)
    (calls : List (Call σ))
    (hwithin : ∀ done, done <+: calls → (session service start done).Within)
    (hfresh : (session service start calls).stale = false)
    (hselection : (session service start calls).cursor.selection = some s)
    (hkey : Level.cell.allows key = true) (text : String) :
    ∃ e', setAttribute key.name text (session service start calls) = .ok () e' ∧
      (session service start calls).Restyles e' key (Overlay.reduceHash text) :=
  ⟨_, send_of_selection hfresh hselection (.set key.name text),
    restyles_rebuilt (isBuilt_session service hstart calls hwithin)
      (hwithin calls (List.prefix_refl calls)) (steady_session service hstart calls).1.rests
      hfresh hselection hkey text⟩

/-- The first row of a table with two. -/
theorem setAttribute_restyles_row :
    let start : Engine Table := opened (.ofSize 2 2) (.ofSize 2 2) {}
    let calls : List (Call Table) :=
      [.perform (.interact (.select ⟨0, 0⟩ false)), .perform (.interact (.move .right true))]
    let e := session Document.service start calls
    (∃ e', setAttribute "color" "##fff" e = .ok () e' ∧ e.Restyles e' .color "#fff") ∧
      e.isSelected ⟨0, 1⟩ = true ∧ e.isSelected ⟨1, 0⟩ = false := by
  intro start calls e
  have hstart : Started start := .opened _ _ _
  have hwithin : ∀ done, done <+: calls → (session Document.service start done).Within := by
    simp only [← List.mem_inits]
    decide +kernel
  have hselection : (session Document.service start calls).cursor.selection =
      some ⟨⟨0, 1⟩, ⟨0, 0⟩⟩ := by
    decide +kernel
  have hkey : Level.cell.allows .color = true := by decide
  have hhash : Overlay.reduceHash "##fff" = "#fff" := by decide
  obtain ⟨e', hok, hrestyles⟩ := setAttribute_restyles Document.service hstart calls hwithin
    (by decide +kernel) hselection hkey "##fff"
  rw [hhash] at hrestyles
  exact ⟨⟨e', hok, hrestyles⟩, by decide +kernel, by decide +kernel⟩

end Engine

end TableGrid
