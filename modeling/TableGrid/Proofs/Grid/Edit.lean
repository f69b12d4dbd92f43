import TableGrid.Proofs.Cell.Attribute
import TableGrid.Proofs.Engine.Built
import TableGrid.Proofs.Grid.Write

/-!
# Grids of edited overlays

An edit of an overlay puts an entry under the address of a cell, whatever other keys name that cell.
It is enough, since the address comes after all of them in the order of the keys, so its entry is
written last.  An overlay on top of all others has the last word, and an edit of it changes one cell
of the grid in the way that it says.

## Key results

- `edits_merged_insert`: an entry put under the address of a cell
- `grid_edit_wins`: a content or an attribute that is set in the uppermost overlay
-/

namespace TableGrid

/-! ## Attributes set on a cell -/

namespace Attributes

theorem get?_set (a : Attributes) (key : Property) (text : String) (key' : Property) :
    (a.set key text).get? key' = if key = key' then some text else a.get? key' := by
  simp only [set, get?, Std.ExtTreeMap.getElem?_insert, Std.compare_eq_iff_eq]

theorem get?_set_self (a : Attributes) (key : Property) (text : String) :
    (a.set key text).get? key = some text := by
  rw [get?_set, if_pos rfl]

theorem set_set (a : Attributes) (key : Property) (text text' : String) :
    (a.set key text).set key text' = a.set key text' := by
  have hvalues : (a.values.insert key text).insert key text' = a.values.insert key text' := by
    refine Std.ExtTreeMap.ext_getElem? fun key' => ?_
    simp only [Std.ExtTreeMap.getElem?_insert]
    split <;> rfl
  simp only [set, hvalues]

end Attributes

/-- Under a recognised name there is a property, and no other part of a patch. -/
theorem Patch.setAttribute_of_ofName? {patch : Patch} {name text : String} {key : Property}
    (h : Property.ofName? name = some key) :
    patch.setAttribute name text = { patch with attributes := patch.attributes.set key text } := by
  have hname : name ∉ fieldNames := by
    rw [← Property.name_of_ofName? h]
    exact name_not_mem_fieldNames key
  rw [setAttribute_of_not_mem hname, Attributes.setNamed, h]

namespace Cell

/-- Set a property of a cell. -/
def setProperty (cell : Cell) (key : Property) (text : String) : Cell :=
  { cell with attributes := cell.attributes.set key text }

/-- Only the last text counts. -/
theorem setProperty_setProperty (cell : Cell) (key : Property) (text text' : String) :
    (cell.setProperty key text).setProperty key text' = cell.setProperty key text' := by
  simp only [setProperty, Attributes.set_set]

theorem apply_setAttribute (cell : Cell) (patch : Patch) {name : String} {key : Property}
    (h : Property.ofName? name = some key) (text : String) :
    cell.apply (patch.setAttribute name text) = (cell.apply patch).setProperty key text := by
  rw [Patch.setAttribute_of_ofName? h, apply, apply, setProperty]
  simp only [Attributes.merge_set]

/-- Setting a property adds it to what the entry writes, or to nothing where there was no entry. -/
theorem apply_attributed (cell : Cell) {name : String} {key : Property}
    (h : Property.ofName? name = some key) (text : String) (written? : Option Entry) :
    cell.apply ((written?.elim .empty Entry.toPatch).setAttribute name text) =
      ((written?.toList.map Entry.toPatch).foldl Cell.apply cell).setProperty key text := by
  rw [apply_setAttribute _ _ h]
  cases written? with
  | none => exact congrArg (setProperty · key text) (apply_empty cell)
  | some entry => rfl

end Cell

/-! ## A cell changed -/

/-- Whether a grid comes from another one by a change of one cell, marks aside: the grid is
    extended as far as that needs, and all other cells are as before, or empty outside. -/
structure Grid.Edits (g g' : Grid) (p : Coord) (f : Cell → Cell) : Prop where
  height : g'.height = max g.height (p.row + 1)
  width : g'.width = max g.width (p.col + 1)
  cell : ∀ q, (g'.cellAt q).clearMarks =
    if p = q then f (g.cellAt q).clearMarks else (g.cellAt q).clearMarks

namespace Grid.Edits

variable {g g' : Grid} {p : Coord} {f : Cell → Cell}

/-- Resolving spans keeps what is changed. -/
theorem resolve (h : g.Edits g' p f) : g.resolve.Edits g'.resolve p f where
  height := by
    rw [height_resolve, height_resolve]
    exact h.height
  width := by
    rw [width_resolve, width_resolve]
    exact h.width
  cell q := by
    rw [clearMarks_cellAt_resolve, clearMarks_cellAt_resolve]
    exact h.cell q

theorem writes {c : Content} (h : g.Edits g' p fun cell => { cell with content := c }) :
    g.Writes g' p c where
  height := h.height
  width := h.width
  cell := h.cell

/-- The cell that is changed is there. -/
theorem exists_get? (h : g.Edits g' p f) :
    ∃ cell, g'.get? p = some cell ∧ cell.clearMarks = f (g.cellAt p).clearMarks := by
  have hin : g'.contains p = true := by
    rw [contains_iff, h.height, h.width]
    omega
  refine ⟨g'.cellAt p, get?_of_contains hin, ?_⟩
  rw [h.cell p, if_pos rfl]

end Grid.Edits

/-! ## Entries put into the uppermost overlay -/

namespace Table

variable {t : Table} {lower : List Overlay} {o : Overlay} {options : Options} {p : Coord}
  {f : Cell → Cell}

theorem edits_merged_insert {entry : Entry} (hadm : options.admits p = true) (hfits : p.Fits)
    (hmarks : ∀ cell : Cell, (f cell).clearMarks = f cell.clearMarks)
    (hentry : ∀ below : Cell, below.apply entry.toPatch =
      f (((o.getAt? p).toList.map Entry.toPatch).foldl Cell.apply below)) :
    (t.merged (lower ++ [o]) options).Edits
      (t.merged (lower ++ [o.insert p.address entry]) options) p f where
  height := height_merged_insert entry hadm hfits
  width := width_merged_insert entry hadm hfits
  cell q := by
    rw [cellAt_merged_insert hadm hfits hentry]
    split
    · exact hmarks _
    · rfl

theorem edits_merged_setContent (c : Content) (hadm : options.admits p = true) (hfits : p.Fits) :
    (t.merged (lower ++ [o]) options).Edits (t.merged (lower ++ [o.setContent p c]) options) p
      fun cell => { cell with content := c } := by
  rw [Overlay.setContent_eq]
  exact edits_merged_insert hadm hfits (fun _ => rfl)
    fun below => Cell.apply_recorded below c (o.getAt? p)

theorem edits_merged_setAttribute {name : String} {key : Property}
    (hname : Property.ofName? name = some key) (text : String) (hadm : options.admits p = true)
    (hfits : p.Fits) :
    (t.merged (lower ++ [o]) options).Edits
      (t.merged (lower ++ [o.setAttribute p name text]) options) p
      fun cell => cell.setProperty key (Overlay.reduceHash text) := by
  rw [Overlay.setAttribute_eq]
  exact edits_merged_insert hadm hfits (fun _ => rfl)
    fun below => Cell.apply_attributed below hname _ (o.getAt? p)

/-- A content or a property that is set in the uppermost overlay, for a cell within the limits, is
    what the cell has in the grid, whichever keys name the cell in this overlay and in those
    below.  The cell is as before in all else, and so are all other cells; the grid is extended as
    far as the cell needs. -/
theorem grid_edit_wins (t : Table) (lower : List Overlay) (o : Overlay) (hfits : options.Fits)
    (hadm : options.admits p = true) :
    (∀ c, let g' := t.grid (lower ++ [o.setContent p c]) options
      (g'.get? p).map (·.content) = some c ∧ (t.grid (lower ++ [o]) options).Writes g' p c) ∧
    ∀ name key text, Property.ofName? name = some key →
      let g' := t.grid (lower ++ [o.setAttribute p name text]) options
      (g'.get? p).bind (·.attributes.get? key) = some (Overlay.reduceHash text) ∧
        (t.grid (lower ++ [o]) options).Edits g' p fun cell =>
          cell.setProperty key (Overlay.reduceHash text) := by
  have hp := Options.fits_of_admits hfits hadm
  constructor
  · intro c g'
    have hedits : (t.grid (lower ++ [o]) options).Edits g' p
        fun cell => { cell with content := c } :=
      (edits_merged_setContent c hadm hp).resolve
    obtain ⟨cell, hcell, hclear⟩ := hedits.exists_get?
    refine ⟨?_, hedits.writes⟩
    rw [hcell, Option.map_some]
    exact congrArg (fun cell => some cell.content) hclear
  · intro name key text hname g'
    have hedits : (t.grid (lower ++ [o]) options).Edits g' p fun cell =>
        cell.setProperty key (Overlay.reduceHash text) :=
      (edits_merged_setAttribute hname text hadm hp).resolve
    obtain ⟨cell, hcell, hclear⟩ := hedits.exists_get?
    refine ⟨?_, hedits⟩
    rw [hcell, Option.bind_some, ← Attributes.get?_set_self]
    exact congrArg (·.attributes.get? key) hclear

/-- Over an alias with a content, an entry of a lower overlay and a literal cell. -/
theorem grid_edit_wins_alias :
    let lower := Overlay.empty.insert "B1" (.plain (.text "below"))
    let patch : Patch := { content := some (.text "alias"), colspan := some 2 }
    let o := Overlay.empty.insert "B01" (.styled patch)
    let t : Table := { rows := [{ cells := [.plain (.text "a"), .plain (.text "b")] }] }
    ((t.grid ([lower] ++ [o.setContent ⟨0, 1⟩ (.text "new")]) {}).get? ⟨0, 1⟩).map (·.content) =
        some (.text "new") ∧
      ((t.grid ([lower] ++ [o.setAttribute ⟨0, 1⟩ "color" "##fff"]) {}).get? ⟨0, 1⟩).bind
        (·.attributes.get? .color) = some "#fff" := by
  intro lower patch o t
  have hfits : ({} : Options).Fits := by decide
  have hadm : ({} : Options).admits ⟨0, 1⟩ = true := by decide
  obtain ⟨hcontent, hproperty⟩ := grid_edit_wins t [lower] o hfits hadm
  have hname : Property.ofName? "color" = some .color := by decide
  exact ⟨(hcontent (.text "new")).1, (hproperty "color" .color "##fff" hname).1⟩

end Table

end TableGrid
