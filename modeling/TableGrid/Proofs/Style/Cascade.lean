import Mathlib.Data.List.Induction
import TableGrid.Proofs.Style.Attributes
import TableGrid.Style.Cascade

/-!
# Which stage of a cascade counts

A resolved style has for each property the text of the uppermost stage that has one.  The stages
are laid on top of each other from the lowest one on; looked at property by property, they are asked
from the uppermost one down.  Of an attribute set a stage sees only what its level admits.

## Key results

- `get?_cascade`: the uppermost stage that has a property
- `get?_cascade_stages`: attribute sets, the own one before ranged defaults and the default for all
- `get?_cellStyle`, `get?_rowStyle`, `get?_colStyle`, `get?_tableStyle`: resolved styles
- `cascade_priority`: these, and that nothing else matters for a style
-/

namespace TableGrid

namespace Style

/-- Styles with the same texts are equal. -/
theorem ext_get? {s s' : Style} (h : ∀ key, s.get? key = s'.get? key) : s = s' := by
  obtain ⟨values⟩ := s
  obtain ⟨values'⟩ := s'
  congr
  exact Std.ExtTreeMap.ext_getElem? h

@[simp] theorem get?_empty (key : Property) : empty.get? key = none :=
  Std.ExtTreeMap.getElem?_empty

theorem get?_insert (s : Style) (key : Property) (text : String) (key' : Property) :
    (s.insert key text).get? key' = if key = key' then some text else s.get? key' := by
  simp only [insert, get?, Std.ExtTreeMap.getElem?_insert, Std.compare_eq_iff_eq]

theorem get?_override (lower upper : Style) (key : Property) :
    (lower.override upper).get? key = (upper.get? key).or (lower.get? key) :=
  Std.ExtTreeMap.getElem?_union

/-- The uppermost stage that has a property decides on it. -/
theorem get?_cascade (stages : List Style) (key : Property) :
    (cascade stages).get? key = (stages.filterMap (·.get? key)).getLast? := by
  -- By induction from the uppermost stage on, which overrides all others.
  induction stages using List.reverseRecOn with
  | nil => exact get?_empty key
  | append_singleton stages stage ih =>
    have hlast : cascade (stages ++ [stage]) = (cascade stages).override stage := by
      rw [cascade, List.foldl_append]
      rfl
    rw [hlast, get?_override, ih, List.filterMap_append, List.getLast?_append]
    cases h : stage.get? key <;> simp [h]

/-- The text of a property for an empty cell. -/
def placeholderText? : Property → Option String
  | .height => some "2em"
  | .width => some "1.5em"
  | _ => none

theorem get?_placeholder (key : Property) : placeholder.get? key = placeholderText? key := by
  rw [placeholder, get?_insert, get?_insert, get?_empty]
  cases key <;> rfl

end Style

namespace Attributes

/-- The text that a set contributes for a property at a level. -/
def textAt? (a : Attributes) (level : Level) (key : Property) : Option String :=
  if level.allows key then a.get? key else none

theorem get?_styleAt (a : Attributes) (level : Level) (key : Property) :
    (a.styleAt level).get? key = a.textAt? level key := by
  simp only [styleAt, Style.get?, textAt?, get?, Std.ExtTreeMap.getElem?_filter']
  cases a.values[key]? with
  | none => simp
  | some text => by_cases h : level.allows key <;> simp [Option.filter, h]

/-- What is left of a set when only the properties stay that a level admits. -/
def cut (level : Level) (a : Attributes) : Attributes :=
  { values := a.values.filter fun key _ => level.allows key }

theorem textAt?_cut (level : Level) (a : Attributes) (key : Property) :
    (a.cut level).textAt? level key = a.textAt? level key := by
  rw [← get?_styleAt a, textAt?]
  split
  · rfl
  · rename_i h
    rw [get?_styleAt, textAt?, if_neg h]

end Attributes

namespace Table

variable {t : Table} {g : Grid} {options : Options} {p : Coord} {level : Level} {key : Property}

/-! ## Stages of attribute sets -/

/-- The text that the last ranged default has for a property, of those that apply and have one. -/
def rangedText? (ranges : List RangedDefault) (applies : Rule → Bool) (level : Level)
    (key : Property) : Option String :=
  ((ranges.filter fun d => applies d.rule).filterMap (·.attributes.textAt? level key)).getLast?

/-- Of stages that are attribute sets, the own set comes before the ranged defaults, and these
    before the default for all. -/
theorem get?_cascade_stages (lower : List Style) (defaults own : Option Attributes)
    (ranges : List RangedDefault) (applies : Rule → Bool) (level : Level) (key : Property) :
    (Style.cascade (lower ++ (defaults.toList ++ applying ranges applies ++ own.toList).map
        (·.styleAt level))).get? key =
      (own.bind (·.textAt? level key)).or ((rangedText? ranges applies level key).or
        ((defaults.bind (·.textAt? level key)).or ((Style.cascade lower).get? key))) := by
  have hoption : ∀ set : Option Attributes, (set.toList.filterMap (·.textAt? level key)).getLast? =
      set.bind (·.textAt? level key) := by
    intro set
    cases set with
    | none => rfl
    | some a => cases h : a.textAt? level key <;> simp [h]
  have hranged : ((applying ranges applies).filterMap (·.textAt? level key)).getLast? =
      rangedText? ranges applies level key := by
    rw [applying, List.filterMap_map]
    rfl
  rw [Style.get?_cascade, Style.get?_cascade, List.filterMap_append, List.filterMap_map]
  simp only [Function.comp_def, Attributes.get?_styleAt]
  rw [List.filterMap_append, List.filterMap_append, List.getLast?_append, List.getLast?_append,
    List.getLast?_append, hoption, hoption, hranged, Option.or_assoc, Option.or_assoc]

/-- Without anything below. -/
theorem get?_cascade_sets (defaults own : Option Attributes) (ranges : List RangedDefault)
    (applies : Rule → Bool) (level : Level) (key : Property) :
    (Style.cascade ((defaults.toList ++ applying ranges applies ++ own.toList).map
        (·.styleAt level))).get? key =
      (own.bind (·.textAt? level key)).or ((rangedText? ranges applies level key).or
        (defaults.bind (·.textAt? level key))) := by
  have h := get?_cascade_stages [] defaults own ranges applies level key
  rwa [Style.get?_cascade [], List.filterMap_nil, List.getLast?_nil, Option.or_none] at h

/-! ## Resolved styles -/

theorem get?_cellStyle (t : Table) (g : Grid) (options : Options) (p : Coord) (key : Property) :
    (t.cellStyle g options p).get? key =
      ((g.get? p).bind (·.attributes.textAt? .cell key)).or
        ((rangedText? t.cellRanges (·.matchesCell g.height g.width p.row p.col) .cell key).or
          ((t.cellDefaults.bind (·.textAt? .cell key)).or
            ((if options.placeholder && showsNothing g p then Style.placeholderText? key
              else none).or
              (t.columns[p.col]?.bind (·.attributes.textAt? .columnCell key))))) := by
  -- Below the sets of the cell there are two stages: the column, and the placeholder on top of it.
  have hlower : (Style.cascade
      ((t.columns[p.col]?.map fun c => c.attributes.styleAt .columnCell).toList ++
        if options.placeholder && showsNothing g p then [Style.placeholder] else [])).get? key =
      (if options.placeholder && showsNothing g p then Style.placeholderText? key else none).or
        (t.columns[p.col]?.bind (·.attributes.textAt? .columnCell key)) := by
    rw [Style.get?_cascade, List.filterMap_append, List.getLast?_append]
    congr 1
    · split
      · rw [← Style.get?_placeholder]
        cases h : Style.placeholder.get? key <;> simp [h]
      · rfl
    · cases t.columns[p.col]? with
      | none => rfl
      | some c =>
        rw [Option.bind_some, ← Attributes.get?_styleAt]
        cases h : (c.attributes.styleAt .columnCell).get? key <;> simp [h]
  rw [cellStyle, cellStages, get?_cascade_stages, hlower, Option.bind_map]
  rfl

theorem get?_rowStyle (t : Table) (g : Grid) (row : Nat) (key : Property) :
    (t.rowStyle g row).get? key =
      (t.rows[row]?.bind (·.attributes.textAt? .row key)).or
        ((rangedText? t.rowRanges (·.matchesIndex g.height row) .row key).or
          (t.rowDefaults.bind (·.textAt? .row key))) := by
  rw [rowStyle, rowStages, get?_cascade_sets, Option.bind_map]
  rfl

theorem get?_colStyle (t : Table) (g : Grid) (col : Nat) (key : Property) :
    (t.colStyle g col).get? key =
      (t.columns[col]?.bind (·.attributes.textAt? .column key)).or
        ((rangedText? t.colRanges (·.matchesIndex g.width col) .column key).or
          (t.colDefaults.bind (·.textAt? .column key))) := by
  rw [colStyle, colStages, get?_cascade_sets, Option.bind_map]
  rfl

theorem get?_tableStyle (t : Table) (key : Property) :
    t.tableStyle.get? key = t.attributes.textAt? .table key :=
  Attributes.get?_styleAt t.attributes .table key

/-! ## What does not matter -/

theorem rangedText?_cut (ranges : List RangedDefault) (applies : Rule → Bool) (level : Level)
    (key : Property) :
    rangedText? (ranges.map fun d => { d with attributes := d.attributes.cut level }) applies level
      key = rangedText? ranges applies level key := by
  rw [rangedText?, rangedText?, List.filter_map, List.filterMap_map]
  exact congrArg (fun f => List.getLast? (List.filterMap f _))
    (funext fun d => Attributes.textAt?_cut level d.attributes key)

/-- The table without what its stages do not see: all attributes but the properties that the level
    of each stage admits.  Columns are cut for one of the two levels that they are asked for. -/
def cut (columnLevel : Level) (t : Table) : Table :=
  { t with
    rows := t.rows.map fun row => { row with attributes := row.attributes.cut .row }
    columns := t.columns.map fun c => { c with attributes := c.attributes.cut columnLevel }
    rowDefaults := t.rowDefaults.map (·.cut .row)
    colDefaults := t.colDefaults.map (·.cut .column)
    cellDefaults := t.cellDefaults.map (·.cut .cell)
    rowRanges := t.rowRanges.map fun d => { d with attributes := d.attributes.cut .row }
    colRanges := t.colRanges.map fun d => { d with attributes := d.attributes.cut .column }
    cellRanges := t.cellRanges.map fun d => { d with attributes := d.attributes.cut .cell }
    attributes := t.attributes.cut .table }

end Table

/-- The grid without what the style of a cell does not see of the attributes of cells. -/
def Grid.cut (g : Grid) : Grid :=
  g.map fun cell => { cell with attributes := cell.attributes.cut .cell }

namespace Table

theorem showsNothing_cut (g : Grid) (p : Coord) : showsNothing g.cut p = showsNothing g p := by
  rw [showsNothing, showsNothing, Grid.cut, Grid.get?_map]
  cases g.get? p <;> rfl

theorem cellStyle_cut (t : Table) (g : Grid) (options : Options) (p : Coord) :
    (t.cut .columnCell).cellStyle g.cut options p = t.cellStyle g options p := by
  refine Style.ext_get? fun key => ?_
  rw [get?_cellStyle, get?_cellStyle, showsNothing_cut]
  simp only [cut, Grid.cut, Grid.height_map, Grid.width_map, Grid.get?_map, rangedText?_cut,
    List.getElem?_map, Option.bind_map, Function.comp_def, Attributes.textAt?_cut]

theorem rowStyle_cut (t : Table) (columnLevel : Level) (g : Grid) (row : Nat) :
    (t.cut columnLevel).rowStyle g.cut row = t.rowStyle g row := by
  refine Style.ext_get? fun key => ?_
  rw [get?_rowStyle, get?_rowStyle]
  simp only [cut, Grid.cut, Grid.height_map, rangedText?_cut, List.getElem?_map, Option.bind_map,
    Function.comp_def, Attributes.textAt?_cut]

theorem colStyle_cut (t : Table) (g : Grid) (col : Nat) :
    (t.cut .column).colStyle g.cut col = t.colStyle g col := by
  refine Style.ext_get? fun key => ?_
  rw [get?_colStyle, get?_colStyle]
  simp only [cut, Grid.cut, Grid.width_map, rangedText?_cut, List.getElem?_map, Option.bind_map,
    Function.comp_def, Attributes.textAt?_cut]

theorem tableStyle_cut (t : Table) (columnLevel : Level) :
    (t.cut columnLevel).tableStyle = t.tableStyle := by
  refine Style.ext_get? fun key => ?_
  rw [get?_tableStyle, get?_tableStyle]
  exact Attributes.textAt?_cut .table t.attributes key

/-- The style of a cell has for each property what the first of these has that has something: the
    attributes of the cell, the last ranged default that applies, the default for all cells, the
    placeholder where nothing is shown, and the column.  Rows and columns have their own attributes,
    then ranged defaults, then the default for all, and the table has its attributes.  Of each set
    only the properties count that the level admits; whatever else is in the sets may go without any
    change of a style. -/
theorem cascade_priority (t : Table) (g : Grid) (options : Options) :
    (∀ p key, (t.cellStyle g options p).get? key =
      ((g.get? p).bind (·.attributes.textAt? .cell key)).or
        ((rangedText? t.cellRanges (·.matchesCell g.height g.width p.row p.col) .cell key).or
          ((t.cellDefaults.bind (·.textAt? .cell key)).or
            ((if options.placeholder && showsNothing g p then Style.placeholderText? key
              else none).or
              (t.columns[p.col]?.bind (·.attributes.textAt? .columnCell key)))))) ∧
    (∀ row key, (t.rowStyle g row).get? key =
      (t.rows[row]?.bind (·.attributes.textAt? .row key)).or
        ((rangedText? t.rowRanges (·.matchesIndex g.height row) .row key).or
          (t.rowDefaults.bind (·.textAt? .row key)))) ∧
    (∀ col key, (t.colStyle g col).get? key =
      (t.columns[col]?.bind (·.attributes.textAt? .column key)).or
        ((rangedText? t.colRanges (·.matchesIndex g.width col) .column key).or
          (t.colDefaults.bind (·.textAt? .column key)))) ∧
    (∀ key, t.tableStyle.get? key = t.attributes.textAt? .table key) ∧
    (∀ p, (t.cut .columnCell).cellStyle g.cut options p = t.cellStyle g options p) ∧
    (∀ level row, (t.cut level).rowStyle g.cut row = t.rowStyle g row) ∧
    (∀ col, (t.cut .column).colStyle g.cut col = t.colStyle g col) ∧
    ∀ level, (t.cut level).tableStyle = t.tableStyle :=
  ⟨t.get?_cellStyle g options, t.get?_rowStyle g, t.get?_colStyle g, t.get?_tableStyle,
    t.cellStyle_cut g options, fun level row => t.rowStyle_cut level g row, t.colStyle_cut g,
    fun level => t.tableStyle_cut level⟩

/-- The width of a column is no property of its cells, and an attribute that is not recognised is no
    part of a style. -/
example :
    let own : Attributes := (Attributes.empty.setNamed "color" "green").setNamed "formula" "=1"
    let column := ((Attributes.empty.set .color "black").set .fontWeight "bold").set .width "9em"
    let ranged := (Attributes.empty.set .color "red").set .textAlign "left"
    let t : Table :=
      { columns := [{ attributes := column }], cellRanges := [⟨.bounds [0, 0], ranged⟩] }
    let g := Grid.empty.place ⟨0, 0⟩ { content := some (.text "x"), attributes := own }
    (t.cellStyle g {} ⟨0, 0⟩).css = "color: green; font-weight: bold; text-align: left" := by
  decide +kernel

end Table

end TableGrid
