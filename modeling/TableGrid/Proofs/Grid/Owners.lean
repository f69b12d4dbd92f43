import TableGrid.Proofs.Grid.Shape

/-!
# Owners

The owners of a grid are the cells that no other cell covers.  A grid is settled if the marks of
every cell lead to one of them, as they do when spans have been resolved.  Where the marks lead
depends on the shape of the cells alone, so contents may be written into a settled grid.

## Key results

- `mem_owners`: an owner is a cell without a mark
- `owner_or_covers`: in a resolved grid a cell is its own owner, or its owner covers it
- `owner?_congr`, `owners_congr`: grids of one shape have the same owners
- `settled_resolve`: a resolved grid is settled
-/

namespace TableGrid

namespace Grid

variable {g h : Grid} {p owner : Coord}

theorem mem_coords : p ∈ g.coords ↔ g.contains p = true := by
  obtain ⟨row, col⟩ := p
  rw [contains_iff]
  simp [coords]

theorem mem_owners :
    owner ∈ g.owners ↔ ∃ cell, g.get? owner = some cell ∧ cell.subsumedBy = none := by
  rw [owners, List.mem_filter, mem_coords, ← get?_isSome_iff]
  cases g.get? owner with
  | none => simp
  | some cell => simp [Cell.isOwner]

theorem mem_owners_iff_mark? : p ∈ g.owners ↔ g.contains p = true ∧ g.mark? p = none := by
  rw [mem_owners, mark?, ← get?_isSome_iff]
  cases g.get? p <;> simp

theorem contains_of_mem_owners (h : p ∈ g.owners) : g.contains p = true :=
  (mem_owners_iff_mark?.1 h).1

theorem contains_of_owner? (h : g.owner? p = some owner) : g.contains p = true := by
  unfold owner? at h
  split at h
  · assumption
  · cases h

/-- Marks that leave the grid are not followed. -/
theorem contains_follow (h : g.contains p = true) (steps : Nat) :
    g.contains (g.follow steps p) = true := by
  induction steps generalizing p with
  | zero => exact h
  | succ steps ih =>
    rw [follow]
    split
    · exact h
    · split
      · exact ih ‹_›
      · exact h

theorem contains_owner (h : g.owner? p = some owner) : g.contains owner = true := by
  have hin := contains_of_owner? h
  rw [owner?, if_pos hin, Option.some.injEq] at h
  rw [← h]
  exact contains_follow hin _

theorem owner?_isSome (h : g.contains p = true) : ∃ owner, g.owner? p = some owner := by
  rw [owner?, if_pos h]
  exact ⟨_, rfl⟩

/-- An owner belongs to itself. -/
theorem owner?_of_mem_owners (h : p ∈ g.owners) : g.owner? p = some p := by
  obtain ⟨hin, hmark⟩ := mem_owners_iff_mark?.1 h
  exact owner?_of_free hin hmark

theorem Covers.mem_owners (h : g.Covers owner p) : owner ∈ g.owners := by
  obtain ⟨-, cell, hcell, hfree, -⟩ := h
  exact Grid.mem_owners.2 ⟨cell, hcell, hfree⟩

/-- In a resolved grid a cell is its own owner, or its owner covers it. -/
theorem owner_or_covers (h : g.resolve.owner? p = some owner) :
    p = owner ∧ owner ∈ g.resolve.owners ∨ g.resolve.Covers owner p := by
  have hin := contains_of_owner? h
  cases hmark : g.resolve.mark? p with
  | none =>
    have howner : p ∈ g.resolve.owners := mem_owners_iff_mark?.2 ⟨hin, hmark⟩
    rw [owner?_of_mem_owners howner, Option.some.injEq] at h
    subst h
    exact .inl ⟨rfl, howner⟩
  | some other =>
    have hcovers := covers_of_mark hmark
    rw [owner?_of_covers hin hcovers hmark, Option.some.injEq] at h
    subst h
    exact .inr hcovers

/-! ## Grids of one shape -/

theorem height_congr (heq : g.map Cell.shape = h.map Cell.shape) : g.height = h.height := by
  simpa using congrArg Grid.height heq

theorem width_congr (heq : g.map Cell.shape = h.map Cell.shape) : g.width = h.width := by
  simpa using congrArg Grid.width heq

theorem contains_congr (heq : g.map Cell.shape = h.map Cell.shape) (p : Coord) :
    g.contains p = h.contains p := by
  rw [contains, contains, height_congr heq, width_congr heq]

theorem mark?_map_shape (g : Grid) (p : Coord) : (g.map Cell.shape).mark? p = g.mark? p := by
  rw [mark?, mark?, get?_map]
  cases g.get? p <;> rfl

theorem mark?_congr (heq : g.map Cell.shape = h.map Cell.shape) (p : Coord) :
    g.mark? p = h.mark? p := by
  rw [← mark?_map_shape, heq, mark?_map_shape]

theorem follow_congr (heq : g.map Cell.shape = h.map Cell.shape) (steps : Nat) (p : Coord) :
    g.follow steps p = h.follow steps p := by
  induction steps generalizing p with
  | zero => rfl
  | succ steps ih =>
    rw [follow, follow, mark?_congr heq]
    cases h.mark? p with
    | none => rfl
    | some owner => simp only [contains_congr heq, ih]

/-- Grids of one shape have the same owners. -/
theorem owner?_congr (heq : g.map Cell.shape = h.map Cell.shape) (p : Coord) :
    g.owner? p = h.owner? p := by
  rw [owner?, owner?, contains_congr heq, height_congr heq, width_congr heq, follow_congr heq]

theorem owners_map_shape (g : Grid) : (g.map Cell.shape).owners = g.owners := by
  have hcoords : (g.map Cell.shape).coords = g.coords := by
    rw [coords, coords, height_map, width_map]
  rw [owners, owners, hcoords]
  apply List.filter_congr
  intro p _
  rw [get?_map]
  cases g.get? p <;> rfl

theorem owners_congr (heq : g.map Cell.shape = h.map Cell.shape) : g.owners = h.owners := by
  rw [← owners_map_shape, heq, owners_map_shape]

/-! ## Settled grids -/

/-- Whether the marks of every cell lead to an owner. -/
def Settled (g : Grid) : Prop := ∀ p owner, g.owner? p = some owner → owner ∈ g.owners

theorem settled_resolve (g : Grid) : g.resolve.Settled := by
  intro p owner howner
  rcases owner_or_covers howner with ⟨-, hmem⟩ | hcovers
  · exact hmem
  · exact hcovers.mem_owners

theorem Settled.congr (hg : g.Settled) (heq : g.map Cell.shape = h.map Cell.shape) :
    h.Settled := by
  intro p owner howner
  rw [← owner?_congr heq] at howner
  rw [← owners_congr heq]
  exact hg p owner howner

end Grid

end TableGrid
