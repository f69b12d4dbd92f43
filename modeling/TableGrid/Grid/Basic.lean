import TableGrid.Cell.Basic

/-! # Grids

A `Grid` is a rectangle of resolved cells.  `Grid.get?` is the view through which grids are
reasoned about: it gives the cell at a coordinate, and two grids of one size that agree on it
are equal (`Grid.ext_get?`).

* `Grid.blank`      a grid of empty cells
* `Grid.modify`     change one cell
* `Grid.grow`       extend to a size with empty cells
* `Grid.owner?`     the cell that covers a coordinate, by following the marks
-/

namespace TableGrid

/-- A rectangle of cells. -/
structure Grid where
  rows : Array (Array Cell)
  /-- The number of columns. -/
  width : Nat
  rectangular : ∀ row ∈ rows, row.size = width
deriving DecidableEq

namespace Grid

/-- The number of rows. -/
def height (g : Grid) : Nat := g.rows.size

/-- A grid of empty cells. -/
def blank (height width : Nat) : Grid where
  rows := Array.replicate height (Array.replicate width .blank)
  width := width
  rectangular := by simp +contextual [Array.mem_replicate]

/-- The grid without cells. -/
def empty : Grid := blank 0 0

/-- Whether a coordinate lies inside. -/
def contains (g : Grid) (p : Coord) : Bool := p.row < g.height && p.col < g.width

/-- Whether the grid has no cells. -/
def isEmpty (g : Grid) : Bool := g.height == 0 || g.width == 0

/-- The cell at a coordinate. -/
def get? (g : Grid) (p : Coord) : Option Cell := (g.rows[p.row]?).bind (·[p.col]?)

/-- The cell at a coordinate, or the error for a coordinate outside. -/
def cell (g : Grid) (p : Coord) : Except TableError Cell :=
  if g.height ≤ p.row then .error (.rowOutOfBounds p.row g.height)
  else
    match g.get? p with
    | some c => .ok c
    | none => .error (.columnOutOfBounds p.col g.width)

/-- Change the cell at a coordinate, if there is one. -/
def modify (g : Grid) (p : Coord) (f : Cell → Cell) : Grid where
  rows := g.rows.modify p.row fun row => row.modify p.col f
  width := g.width
  rectangular := by
    intro row h
    obtain ⟨i, hi, rfl⟩ := Array.mem_iff_getElem.1 h
    have hi' : i < g.rows.size := by simpa using hi
    have hg := g.rectangular (g.rows[i]) (Array.getElem_mem hi')
    rw [Array.getElem_modify]
    split <;> simp [hg]

/-- Change every cell. -/
def map (f : Cell → Cell) (g : Grid) : Grid where
  rows := g.rows.map fun row => row.map f
  width := g.width
  rectangular := by
    intro row h
    obtain ⟨row', h', rfl⟩ := Array.mem_map.1 h
    simpa using g.rectangular row' h'

/-- Extend a row to a width. -/
def padRow (width : Nat) (row : Array Cell) : Array Cell :=
  row ++ Array.replicate (width - row.size) .blank

/-- Extend a grid to at least the given size with empty cells. -/
def grow (g : Grid) (height width : Nat) : Grid where
  rows :=
    (if width ≤ g.width then g.rows else g.rows.map (padRow width)) ++
      Array.replicate (height - g.height) (Array.replicate (max g.width width) .blank)
  width := max g.width width
  rectangular := by
    intro row h
    rcases Array.mem_append.1 h with h | h
    · split at h
      · rename_i hw
        rw [g.rectangular row h]
        omega
      · obtain ⟨row', h', rfl⟩ := Array.mem_map.1 h
        simp only [padRow, Array.size_append, Array.size_replicate, g.rectangular row' h']
        omega
    · rw [(Array.mem_replicate.1 h).2, Array.size_replicate]

/-- Replace the content of a cell. -/
def setContent (g : Grid) (p : Coord) (c : Content) : Grid :=
  g.modify p fun cell => { cell with content := c }

/-- Write a patch onto a cell, extending the grid as far as needed. -/
def place (g : Grid) (p : Coord) (patch : Patch) : Grid :=
  (g.grow (p.row + 1) (p.col + 1)).modify p (·.apply patch)

/-- All coordinates, row by row. -/
def coords (g : Grid) : List Coord :=
  (List.range g.height).flatMap fun row => (List.range g.width).map fun col => ⟨row, col⟩

/-- The coordinates of the cells that no other cell covers, row by row. -/
def owners (g : Grid) : List Coord :=
  g.coords.filter fun p => match g.get? p with
    | some c => c.isOwner
    | none => false

/-! ### Following the marks -/

/-- The cell that marks a coordinate as covered. -/
def mark? (g : Grid) (p : Coord) : Option Coord := (g.get? p).bind (·.subsumedBy)

/-- Follow the marks for at most `steps` steps, staying inside the grid. -/
def follow (g : Grid) : (steps : Nat) → Coord → Coord
  | 0, p => p
  | steps + 1, p =>
    match g.mark? p with
    | none => p
    | some owner => if g.contains owner then g.follow steps owner else p

/-- The cell at which the marks of a coordinate end; `none` outside.  A mark that leaves the
    grid is not followed, and marks in a circle are followed once for every cell. -/
def owner? (g : Grid) (p : Coord) : Option Coord :=
  if g.contains p then some (g.follow (g.height * g.width) p) else none

/-! ### The view -/

theorem get?_eq_none_iff {g : Grid} {p : Coord} : g.get? p = none ↔ g.contains p = false := by
  unfold get? contains height
  cases h : g.rows[p.row]? with
  | none =>
    rw [Array.getElem?_eq_none_iff] at h
    simp; omega
  | some row =>
    obtain ⟨hlt, heq⟩ := Array.getElem?_eq_some_iff.1 h
    have := g.rectangular row (heq ▸ Array.getElem_mem hlt)
    simp [this, hlt]

theorem get?_isSome_iff {g : Grid} {p : Coord} :
    (g.get? p).isSome = true ↔ g.contains p = true := by
  rw [Option.isSome_iff_ne_none, ne_eq, get?_eq_none_iff]
  simp

/-- Grids of one size with the same cells are equal. -/
theorem ext_get? {g h : Grid} (hh : g.height = h.height) (hw : g.width = h.width)
    (hc : ∀ p, g.get? p = h.get? p) : g = h := by
  obtain ⟨rs, w, hr⟩ := g
  obtain ⟨rs', w', hr'⟩ := h
  simp only [height] at hh hw
  subst hw
  congr
  apply Array.ext hh
  intro i hi hi'
  apply Array.ext
  · rw [hr _ (Array.getElem_mem hi), hr' _ (Array.getElem_mem hi')]
  · intro j hj hj'
    have := hc ⟨i, j⟩
    simpa [get?, hi, hi', hj, hj'] using this

@[simp] theorem height_modify (g : Grid) (p : Coord) (f : Cell → Cell) :
    (g.modify p f).height = g.height := by simp [modify, height]

@[simp] theorem width_modify (g : Grid) (p : Coord) (f : Cell → Cell) :
    (g.modify p f).width = g.width := rfl

theorem get?_modify (g : Grid) (p q : Coord) (f : Cell → Cell) :
    (g.modify p f).get? q = if p = q then (g.get? q).map f else g.get? q := by
  obtain ⟨r, c⟩ := p
  obtain ⟨r', c'⟩ := q
  simp only [modify, get?, Array.getElem?_modify, Coord.mk.injEq]
  by_cases hr : r = r'
  · subst hr
    cases g.rows[r]? with
    | none => simp
    | some row => simp [Array.getElem?_modify]
  · simp [hr]

@[simp] theorem height_blank (m n : Nat) : (blank m n).height = m := by simp [blank, height]

@[simp] theorem width_blank (m n : Nat) : (blank m n).width = n := rfl

theorem get?_blank (m n : Nat) (p : Coord) :
    (blank m n).get? p = if p.row < m ∧ p.col < n then some .blank else none := by
  simp only [blank, get?, Array.getElem?_replicate]
  by_cases hr : p.row < m <;> by_cases hc : p.col < n <;> simp [hr, hc]

@[simp] theorem height_map (f : Cell → Cell) (g : Grid) : (g.map f).height = g.height := by
  simp [map, height]

@[simp] theorem width_map (f : Cell → Cell) (g : Grid) : (g.map f).width = g.width := rfl

theorem get?_map (f : Cell → Cell) (g : Grid) (p : Coord) :
    (g.map f).get? p = (g.get? p).map f := by
  simp only [map, get?, Array.getElem?_map]
  cases g.rows[p.row]? <;> simp

@[simp] theorem height_grow (g : Grid) (m n : Nat) : (g.grow m n).height = max g.height m := by
  have hrows : (if n ≤ g.width then g.rows else g.rows.map (padRow n)).size = g.rows.size := by
    split <;> simp
  simp only [grow, height, Array.size_append, Array.size_replicate, hrows]
  omega

@[simp] theorem width_grow (g : Grid) (m n : Nat) : (g.grow m n).width = max g.width n := rfl

/-- Growing keeps every cell; the cells added are empty. -/
theorem get?_grow (g : Grid) (m n : Nat) (p : Coord) :
    (g.grow m n).get? p =
      if (g.grow m n).contains p then some ((g.get? p).getD .blank) else none := by
  by_cases hin : (g.grow m n).contains p = true
  · rw [if_pos hin]
    have hin' := hin
    simp only [contains, height_grow, width_grow, Bool.and_eq_true, decide_eq_true_eq] at hin'
    obtain ⟨hr, hc⟩ := hin'
    replace hc : p.col < max g.width n := of_decide_eq_true hc
    have hsize : (if n ≤ g.width then g.rows else g.rows.map (padRow n)).size = g.height := by
      split <;> simp [height]
    simp only [grow, get?]
    by_cases hrow : p.row < g.height
    · rw [Array.getElem?_append_left (by omega)]
      have hrow' : p.row < g.rows.size := hrow
      have hrect := g.rectangular _ (Array.getElem_mem hrow')
      split
      · rename_i hn
        have hc' : p.col < g.rows[p.row].size := by omega
        simp [hrow', hc']
      · rename_i hn
        simp only [Array.getElem?_map, Array.getElem?_eq_getElem hrow', Option.map_some,
          Option.bind_some, padRow]
        by_cases hcol : p.col < g.width
        · have hc' : p.col < g.rows[p.row].size := by omega
          rw [Array.getElem?_append_left hc']
          simp [hc']
        · have hc' : g.rows[p.row].size ≤ p.col := by omega
          have hcol' : p.col < n := by omega
          rw [Array.getElem?_append_right hc', Array.getElem?_eq_none hc',
            Array.getElem?_replicate, if_pos (by omega)]
          rfl
    · rw [Array.getElem?_append_right (by omega), hsize, Array.getElem?_replicate,
        if_pos (by omega)]
      have hnone : g.rows[p.row]? = none := Array.getElem?_eq_none (by simpa [height] using hrow)
      simp only [hnone, Option.bind_some, Option.bind_none, Option.getD_none,
        Array.getElem?_replicate, if_pos hc]
  · rw [if_neg hin]
    exact get?_eq_none_iff.2 (by simpa using hin)

end Grid

end TableGrid
