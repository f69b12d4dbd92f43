import TableGrid.Cursor.Basic
import TableGrid.Proofs.Grid.Owners

/-!
# Selections rest on owners

A cursor rests on a grid if the active cell and the anchor are owners there.  On a settled grid
clicks and moves keep that, whatever the lock remembers from another grid, and bringing a cursor
onto another grid establishes it.

## Key results

- `mem_cells`: the cells of a selection
- `move_cases`: what a move does to the cursor
- `Rests.click`, `Rests.move`: clicks and moves on a settled grid
- `rests_revalidate`: a cursor that is brought onto another grid
- `selection_revalidate`: a resting cursor stays where it is
- `active?_revalidate_iff`: when an owner stays active on another grid
-/

namespace TableGrid

/-! ## The rectangle -/

namespace Selection

variable {s : Selection} {p : Coord}

theorem mem_indices {first last i : Nat} : i ∈ indices first last ↔ first ≤ i ∧ i ≤ last := by
  simp only [indices, List.mem_map, List.mem_range]
  constructor
  · rintro ⟨k, hk, rfl⟩
    omega
  · exact fun h => ⟨i - first, by omega, by omega⟩

theorem contains_iff : s.contains p = true ↔
    (s.topLeft.row ≤ p.row ∧ p.row ≤ s.bottomRight.row) ∧
      s.topLeft.col ≤ p.col ∧ p.col ≤ s.bottomRight.col := by
  simp [contains, and_assoc]

/-- The cells that are gone through are those of the rectangle. -/
theorem mem_cells : p ∈ s.cells ↔ s.contains p = true := by
  obtain ⟨row, col⟩ := p
  simp [cells, contains_iff, mem_indices]

end Selection

namespace Cursor

variable {c c' : Cursor} {g h : Grid} {owner p : Coord} {extend : Bool}

@[simp] theorem active?_place : (c.place owner extend).active? = some owner := by
  unfold place active?
  split
  · split <;> rfl
  · rfl

@[simp] theorem lock_place : (c.place owner extend).lock = c.lock := by
  unfold place
  split
  · split <;> rfl
  · rfl

/-- What a move does to the cursor. -/
theorem move_cases (c : Cursor) (g : Grid) (direction : Direction) (extend : Bool) :
    ∃ lock, c.move g direction extend = (none, { c with lock }) ∨
      ∃ p target, g.owner? p = some target ∧
        c.move g direction extend = (some target, { c with lock }.place target extend) := by
  unfold move
  cases c.active? with
  | none => exact ⟨c.lock, .inl rfl⟩
  | some active =>
    simp only
    -- The lock is set once the cell to step from is known, and before the one to step to is.
    split
    · exact ⟨c.lock, .inl rfl⟩
    · split
      · exact ⟨c.lock, .inl rfl⟩
      · split
        · exact ⟨c.lock, .inl rfl⟩
        · split
          · exact ⟨_, .inl rfl⟩
          · rename_i target htarget
            exact ⟨_, .inr ⟨_, target, htarget, rfl⟩⟩

/-- Of a cell only the size of its region matters for what is next to it. -/
theorem neighbour_congr (heq : g.map Cell.shape = h.map Cell.shape) {cell cell' : Cell}
    (hshape : cell.shape = cell'.shape) (direction : Direction) (source owner : Coord) :
    neighbour g direction source owner cell = neighbour h direction source owner cell' := by
  have hheight : cell.shape.height = cell'.shape.height := congrArg Cell.height hshape
  have hwidth : cell.shape.width = cell'.shape.width := congrArg Cell.width hshape
  change cell.height = cell'.height at hheight
  change cell.width = cell'.width at hwidth
  cases direction <;>
    simp only [neighbour, hheight, hwidth, Grid.height_congr heq, Grid.width_congr heq]

/-- On grids of one shape a move goes the same way. -/
theorem move_congr (heq : g.map Cell.shape = h.map Cell.shape) (c : Cursor)
    (direction : Direction) (extend : Bool) :
    c.move g direction extend = c.move h direction extend := by
  have hempty : g.isEmpty = h.isEmpty := by
    rw [Grid.isEmpty, Grid.isEmpty, Grid.height_congr heq, Grid.width_congr heq]
  have hsource : ∀ active axis, c.source g active axis = c.source h active axis := by
    intro active axis
    rw [source, source, Grid.height_congr heq, Grid.width_congr heq]
  unfold move
  cases c.active? with
  | none => rfl
  | some active =>
    simp only [hempty, hsource, Grid.owner?_congr heq]
    cases h.owner? (c.source h active direction.axis) with
    | none => rfl
    | some owner =>
      have hcell : (g.get? owner).map Cell.shape = (h.get? owner).map Cell.shape := by
        rw [← Grid.get?_map, ← Grid.get?_map, heq]
      cases hg : g.get? owner with
      | none =>
        rw [hg, Option.map_none] at hcell
        simp only [hg, Option.map_eq_none_iff.1 hcell.symm]
      | some cell =>
        rw [hg, Option.map_some] at hcell
        obtain ⟨cell', hh, hshape⟩ := Option.map_eq_some_iff.1 hcell.symm
        simp only [hg, hh, neighbour_congr heq hshape.symm]

/-- Whether the active cell and the anchor are owners of a grid. -/
def Rests (c : Cursor) (g : Grid) : Prop :=
  ∀ s, c.selection = some s → s.active ∈ g.owners ∧ s.anchor ∈ g.owners

/-- The rectangle lies inside the grid, since its corners do. -/
theorem Rests.contains_of_mem_cells {s : Selection} (h : c.Rests g) (hs : c.selection = some s)
    (hp : p ∈ s.cells) : g.contains p = true := by
  obtain ⟨hactive, hanchor⟩ := h s hs
  have hactive := Grid.contains_iff.1 (Grid.contains_of_mem_owners hactive)
  have hanchor := Grid.contains_iff.1 (Grid.contains_of_mem_owners hanchor)
  obtain ⟨⟨-, hrow⟩, -, hcol⟩ := Selection.contains_iff.1 (Selection.mem_cells.1 hp)
  simp only [Selection.bottomRight] at hrow hcol
  rw [Grid.contains_iff]
  omega

theorem rests_cleared (g : Grid) : cleared.Rests g := fun _ h => nomatch h

theorem Rests.congr {h : Grid} (hrests : c.Rests g) (heq : g.map Cell.shape = h.map Cell.shape) :
    c.Rests h := by
  intro s hs
  rw [← Grid.owners_congr heq]
  exact hrests s hs

theorem Rests.place (h : c.Rests g) (howner : owner ∈ g.owners) (extend : Bool) :
    (c.place owner extend).Rests g := by
  intro s hs
  cases hselection : c.selection with
  | none =>
    simp only [Cursor.place, hselection, Option.some.injEq] at hs
    subst hs
    exact ⟨howner, howner⟩
  | some before =>
    cases extend with
    | false =>
      simp only [Cursor.place, hselection, Bool.false_eq_true, if_false, Option.some.injEq] at hs
      subst hs
      exact ⟨howner, howner⟩
    | true =>
      -- Extending moves the active cell only; the anchor was an owner before.
      simp only [Cursor.place, hselection, if_true, Option.some.injEq] at hs
      subst hs
      exact ⟨howner, (h before hselection).2⟩

/-! ## Clicks and moves -/

/-- A click makes the owner of a cell active. -/
theorem Rests.click (h : c.Rests g) (hg : g.Settled)
    (hclick : c.click? g p extend = some (owner, c')) :
    g.owner? p = some owner ∧ c'.active? = some owner ∧ c'.Rests g := by
  obtain ⟨_, howner, heq⟩ := Option.map_eq_some_iff.1 hclick
  obtain ⟨rfl, rfl⟩ := Prod.mk.inj heq
  have hunlocked : ({ c with lock := none } : Cursor).Rests g := h
  exact ⟨howner, active?_place, hunlocked.place (hg p _ howner) extend⟩

theorem Rests.move (h : c.Rests g) (hg : g.Settled) (direction : Direction) (extend : Bool) :
    (c.move g direction extend).2.Rests g := by
  obtain ⟨lock, heq | ⟨p, target, htarget, heq⟩⟩ := c.move_cases g direction extend
  · rw [heq]
    exact h
  · have hlocked : ({ c with lock } : Cursor).Rests g := h
    rw [heq]
    exact hlocked.place (hg p target htarget) extend

/-- The cell that a move answers with is the active one. -/
theorem active?_move {direction : Direction}
    (h : (c.move g direction extend).1 = some owner) :
    (c.move g direction extend).2.active? = some owner := by
  obtain ⟨lock, heq | ⟨p, target, -, heq⟩⟩ := c.move_cases g direction extend
  · rw [heq] at h
    cases h
  · rw [heq, Option.some.injEq] at h
    rw [heq, active?_place, h]

/-! ## Other grids -/

theorem revalidate_eq_some_iff {s : Selection} :
    (c.revalidate g).selection = some s ↔ ∃ before, c.selection = some before ∧
      g.owner? before.active = some s.active ∧ g.owner? before.anchor = some s.anchor := by
  obtain ⟨active, anchor⟩ := s
  simp only [revalidate, Option.bind_eq_some_iff]
  refine exists_congr fun before => and_congr_right fun _ => ?_
  cases g.owner? before.active <;> cases g.owner? before.anchor <;> simp

/-- A cursor that is brought onto a settled grid rests there. -/
theorem rests_revalidate (c : Cursor) (hg : g.Settled) : (c.revalidate g).Rests g := by
  intro s hs
  obtain ⟨before, -, hactive, hanchor⟩ := revalidate_eq_some_iff.1 hs
  exact ⟨hg _ _ hactive, hg _ _ hanchor⟩

theorem revalidate_of_none (g : Grid) (h : c.selection = none) :
    (c.revalidate g).selection = none := by
  simp only [revalidate, h, Option.bind_none]

/-- A resting cursor stays where it is. -/
theorem Rests.selection_revalidate (h : c.Rests g) :
    (c.revalidate g).selection = c.selection := by
  cases hs : c.selection with
  | none => exact revalidate_of_none g hs
  | some s =>
    obtain ⟨hactive, hanchor⟩ := h s hs
    exact revalidate_eq_some_iff.2
      ⟨s, hs, Grid.owner?_of_mem_owners hactive, Grid.owner?_of_mem_owners hanchor⟩

/-- An owner that was active stays so unless the anchor is lost. -/
theorem active?_revalidate_iff (hp : p ∈ g.owners) (hactive : c.active? = some p) :
    (c.revalidate g).active? = some p ↔
      ∀ s, c.selection = some s → g.contains s.anchor = true := by
  obtain ⟨before, hs, rfl⟩ := Option.map_eq_some_iff.1 hactive
  have howner := Grid.owner?_of_mem_owners hp
  constructor
  · intro h s hs'
    obtain ⟨after, hafter, -⟩ := Option.map_eq_some_iff.1 h
    obtain ⟨before', hbefore', -, hanchor⟩ := revalidate_eq_some_iff.1 hafter
    rw [hbefore', Option.some.injEq] at hs'
    rw [← hs']
    exact Grid.contains_of_owner? hanchor
  · intro h
    obtain ⟨anchor, hanchor⟩ := Grid.owner?_isSome (h before hs)
    have hafter : (c.revalidate g).selection = some ⟨before.active, anchor⟩ :=
      revalidate_eq_some_iff.2 ⟨before, hs, howner, hanchor⟩
    rw [active?, hafter]
    rfl

end Cursor

end TableGrid
