import TableGrid.Proofs.Grid.Line

/-!
# Which owner gets a contested cell

Where regions intersect, the owner that is visited first gets the contested cells.  In each row of
its region a later owner covers the cells from its own column on, up to the first one that belongs
to an earlier owner; what lies behind that cell is left to others.

## Key results

- `mark?_own`: the cells that one owner covers when it is visited
- `mark?_resolve_iff`: an owner covers what it reaches before earlier owners
- `first_owner_wins`: the same in terms of who owns which cell
-/

namespace TableGrid

theorem Coord.Before.ne {p q : Coord} (h : p.Before q) : p ≠ q := by
  rintro rfl
  simp only [Coord.Before] at h
  omega

namespace Grid

variable {g g₀ : Grid} {p q owner other : Coord} {cell : Cell} {row col x : Nat}

theorem freeRun_iff_owners {first last : Nat} :
    g.FreeRun row first last ↔ ∀ col, first ≤ col → col ≤ last → ⟨row, col⟩ ∈ g.owners := by
  simp only [FreeRun, mem_owners]

/-- A place does not matter for the marks. -/
theorem mark?_rendered (g : Grid) (p q : Coord) (place : Option RenderPlace) :
    (g.modify p fun cell => { cell with render := place }).mark? q = g.mark? q := by
  rw [mark?, mark?, get?_modify]
  split
  · cases g.get? q <;> rfl
  · rfl

theorem mem_owners_rendered (g : Grid) (p q : Coord) (place : Option RenderPlace) :
    q ∈ (g.modify p fun cell => { cell with render := place }).owners ↔ q ∈ g.owners := by
  rw [mem_owners_iff_mark?, mem_owners_iff_mark?, mark?_rendered, contains, contains,
    height_modify, width_modify]

/-- An owner marks the cells that it covers, and leaves the other marks. -/
theorem mark?_coverRegion {height width : Nat} (hw : 0 < width) (howner : owner ∈ g.owners) :
    (coverRegion owner height width g).mark? q = some other ↔ g.mark? q = some other ∨
      other = owner ∧ InRegion owner height width q ∧ q ≠ owner ∧
        g.FreeRun q.row owner.col q.col := by
  rw [mark?, get?_coverRegion hw (mem_owners.1 howner)]
  split
  · rename_i hcov
    -- The run ends with the cell itself, so nothing has covered it yet.
    have hq := freeRun_iff_owners.1 hcov.2.2 q.col hcov.1.2.1 (Nat.le_refl _)
    obtain ⟨cell, hcell, hfree⟩ := mem_owners.1 hq
    obtain ⟨-, hnone⟩ := mem_owners_iff_mark?.1 hq
    rw [show (⟨q.row, q.col⟩ : Coord) = q from rfl] at hcell hnone
    rw [hcell, hnone]
    simp only [Option.map_some, Option.bind_some, cover, Option.some.injEq, reduceCtorEq, false_or]
    exact ⟨fun h => ⟨h.symm, hcov⟩, fun h => h.1.symm⟩
  · rename_i hcov
    exact (or_iff_left fun h => hcov h.2).symm

/-- The cells that an owner covers when it is visited. -/
theorem mark?_own (hcell : g.get? p = some cell) (hfree : cell.subsumedBy = none) :
    (g.own p cell x).mark? q = some other ↔ g.mark? q = some other ∨
      other = p ∧ InRegion p cell.height cell.width q ∧ q ≠ p ∧
        ∀ col, p.col ≤ col → col ≤ q.col → ⟨q.row, col⟩ ∈ g.owners := by
  have hp : p ∈ g.owners := mem_owners.2 ⟨cell, hcell, hfree⟩
  rw [own, mark?_coverRegion cell.width_pos ((mem_owners_rendered g p p _).2 hp), mark?_rendered,
    freeRun_iff_owners]
  simp only [mem_owners_rendered]

/-! ## What an owner takes -/

/-- Whether an uncovered cell takes another cell of its region: between its column and that cell
    nothing in the row is covered by an earlier owner. -/
def Takes (g : Grid) (owner p : Coord) : Prop :=
  g.Spans owner p ∧ p ≠ owner ∧ ∀ col, owner.col ≤ col → col ≤ p.col →
    ∀ other, g.mark? ⟨p.row, col⟩ = some other → ¬other.Before owner

theorem spans_own (hcell : g.get? p = some cell) (hfree : cell.subsumedBy = none)
    (howner : owner.Before p ∨ owner = p) :
    (g.own p cell x).Spans owner q ↔ g.Spans owner q := by
  rcases howner with hbefore | rfl
  · rw [Spans, get?_own_of_before x hcell hfree hbefore]
    rfl
  · rcases get?_own x hcell hfree owner with ⟨-, heq⟩ | ⟨hne, -⟩ | ⟨hne, -⟩
    · simp only [Spans, heq, hcell, Option.some.injEq, exists_eq_left']
      rfl
    · exact absurd rfl hne
    · exact absurd rfl hne

/-- A visit does not matter for what the cells visited before take. -/
theorem takes_own (hcell : g.get? p = some cell) (hfree : cell.subsumedBy = none)
    (howner : owner.Before p ∨ owner = p) :
    (g.own p cell x).Takes owner q ↔ g.Takes owner q := by
  unfold Takes
  rw [spans_own hcell hfree howner]
  refine and_congr_right fun _ => and_congr_right fun _ => forall_congr' fun col =>
    imp_congr_right fun _ => imp_congr_right fun _ => forall_congr' fun other => ?_
  -- The new marks point to the visited cell, which comes before none of these owners.
  have hother : other = p → ¬other.Before owner := by
    rintro rfl
    rcases howner with hbefore | rfl
    · simp only [Coord.Before] at hbefore ⊢
      omega
    · simp only [Coord.Before]
      omega
  rw [mark?_own hcell hfree]
  constructor
  · exact fun h hmark => h (.inl hmark)
  · rintro h (hmark | ⟨rfl, -⟩)
    · exact h hmark
    · exact hother rfl

/-- While all marks point to cells visited before, a cell takes what free cells join to it. -/
theorem takes_iff_free (hcell : g.get? owner = some cell) (hfree : cell.subsumedBy = none)
    (hmarks : ∀ q other, g.mark? q = some other → other.Before owner)
    (hp : g.contains p = true) :
    g.Takes owner p ↔ InRegion owner cell.height cell.width p ∧ p ≠ owner ∧
      ∀ col, owner.col ≤ col → col ≤ p.col → ⟨p.row, col⟩ ∈ g.owners := by
  have hspans : g.Spans owner p ↔ InRegion owner cell.height cell.width p := by
    simp [Spans, hcell, hfree]
  unfold Takes
  rw [hspans]
  refine and_congr_right fun _ => and_congr_right fun _ => forall_congr' fun col =>
    imp_congr_right fun _ => imp_congr_right fun hcol => ?_
  have hin : g.contains ⟨p.row, col⟩ = true := by
    rw [contains_iff] at hp ⊢
    exact ⟨hp.1, by simp only; omega⟩
  rw [mem_owners_iff_mark?, Option.eq_none_iff_forall_ne_some]
  constructor
  · exact fun h => ⟨hin, fun other hmark => h other hmark (hmarks _ other hmark)⟩
  · exact fun h other hmark => absurd hmark (h.2 other)

/-! ## The scan -/

/-- Whether the cells before `next` have taken what they take, and no other cell is covered. -/
def Decided (g : Grid) (next : Coord) : Prop :=
  ∀ owner p, g.contains p = true →
    (g.mark? p = some owner ↔ owner.Before next ∧ g.Takes owner p)

theorem Scanned.before_of_mark {next : Coord} (h : Scanned g₀ next x g)
    (hmark : g.mark? p = some owner) : owner.Before next := by
  rw [mark?, Option.bind_eq_some_iff] at hmark
  obtain ⟨cell, hcell, hcov⟩ := hmark
  exact (h.covered p cell owner hcell hcov).1

theorem decided_clearMarks (g : Grid) : (g.map Cell.clearMarks).Decided ⟨0, 0⟩ := by
  intro owner p _
  constructor
  · exact fun hmark => nomatch ((scanned_clearMarks g).before_of_mark hmark)
  · rintro ⟨hbefore, -⟩
    simp only [Coord.Before] at hbefore
    omega

/-- A visit to an uncovered cell: it takes what it takes. -/
theorem Decided.own (h : g.Decided ⟨row, col⟩) (hscan : Scanned g₀ ⟨row, col⟩ x g)
    (hcell : g.get? ⟨row, col⟩ = some cell) (hfree : cell.subsumedBy = none) :
    (g.own ⟨row, col⟩ cell x).Decided ⟨row, col + 1⟩ := by
  intro owner p hp
  replace hp : g.contains p = true := by
    rwa [contains, height_own, width_own] at hp
  rw [mark?_own hcell hfree, h owner p hp, Coord.before_next_iff, or_and_right]
  refine or_congr (and_congr_right fun hbefore => ?_) (and_congr_right fun heq => ?_)
  · rw [takes_own hcell hfree (.inl hbefore)]
  · subst heq
    rw [takes_own hcell hfree (.inr rfl),
      takes_iff_free hcell hfree (fun _ _ hmark => hscan.before_of_mark hmark) hp]

/-- A visit to a covered cell: it takes nothing. -/
theorem Decided.skip (h : g.Decided ⟨row, col⟩) (hcell : g.get? ⟨row, col⟩ = some cell)
    (hcov : cell.subsumedBy ≠ none) : g.Decided ⟨row, col + 1⟩ := by
  intro owner p hp
  rw [h owner p hp, Coord.before_next_iff]
  refine and_congr_left fun htakes => (or_iff_left ?_).symm
  rintro rfl
  obtain ⟨⟨cell', hcell', hfree, -⟩, -⟩ := htakes
  rw [hcell, Option.some.injEq] at hcell'
  exact hcov (hcell' ▸ hfree)

theorem Decided.nextRow (h : g.Decided ⟨row, g.width⟩) : g.Decided ⟨row + 1, 0⟩ := by
  intro owner p hp
  rw [h owner p hp]
  refine and_congr_left fun htakes => ?_
  -- Inside the grid, the end of a row and the start of the next one leave the same cells behind.
  have hin := contains_iff.1 htakes.1.contains
  simp only [Coord.Before]
  omega

/-- When spans have been resolved, an owner covers what it takes. -/
theorem mark?_eq_some_iff_takes (g : Grid) (hp : g.contains p = true) :
    g.resolve.mark? p = some owner ↔ g.resolve.Takes owner p := by
  have hscan : Scanned g ⟨g.height, 0⟩ 0 g.resolve ∧ g.resolve.Decided ⟨g.height, 0⟩ :=
    resolve_induction g (P := fun next x h => Scanned g next x h ∧ h.Decided next)
      (fun h => h.1.size_eq) ⟨scanned_clearMarks g, decided_clearMarks g⟩
      (fun h hcell hfree => ⟨h.1.own hcell hfree, h.2.own h.1 hcell hfree⟩)
      (fun h hcell hcov => ⟨h.1.skip hcell hcov, h.2.skip hcell hcov⟩)
      fun h => ⟨h.1.nextRow, h.2.nextRow⟩
  rw [hscan.2 owner p (by rwa [contains, height_resolve, width_resolve])]
  refine and_iff_right_of_imp fun htakes => ?_
  obtain ⟨cell, hcell, -⟩ := htakes.1
  exact height_resolve g ▸ before_end hcell

/-! ## Owners in a row -/

/-- A cell of a resolved grid belongs to the owner that covers it, or else to itself. -/
theorem owner?_resolve_eq_some_iff :
    g.resolve.owner? p = some owner ↔ g.resolve.contains p = true ∧
      (g.resolve.mark? p = some owner ∨ g.resolve.mark? p = none ∧ p = owner) := by
  by_cases hin : g.resolve.contains p = true
  · cases hmark : g.resolve.mark? p with
    | none => simp [owner?_of_free hin hmark, hin]
    | some other => simp [owner?_of_covers hin (covers_of_mark hmark) hmark, hin]
  · simp [owner?, hin]

theorem spans_iff : g.Spans owner p ↔ owner ∈ g.owners ∧
    InRegion owner (g.cellAt owner).height (g.cellAt owner).width p := by
  rw [mem_owners, cellAt]
  constructor
  · rintro ⟨cell, hcell, hfree, hregion⟩
    exact ⟨⟨cell, hcell, hfree⟩, by rwa [hcell]⟩
  · rintro ⟨⟨cell, hcell, hfree⟩, hregion⟩
    exact ⟨cell, hcell, hfree, by rwa [hcell] at hregion⟩

/-- Whether no cell of a row that an owner would take before reaching a coordinate belongs to an
    earlier owner. -/
def Unopposed (g : Grid) (owner p : Coord) : Prop :=
  ∀ col, owner.col ≤ col → col ≤ p.col → ⟨p.row, col⟩ ≠ owner →
    ∀ other, g.owner? ⟨p.row, col⟩ = some other → ¬other.Before owner

/-- A free cell is no opposition, as it comes behind the owner whose region it is in. -/
theorem unopposed_iff (hp : g.resolve.contains p = true) (hspans : g.resolve.Spans owner p) :
    g.resolve.Unopposed owner p ↔ ∀ col, owner.col ≤ col → col ≤ p.col →
      ∀ other, g.resolve.mark? ⟨p.row, col⟩ = some other → ¬other.Before owner := by
  obtain ⟨howner, hregion⟩ := spans_iff.1 hspans
  refine forall_congr' fun col => imp_congr_right fun hfirst => imp_congr_right fun hlast => ?_
  constructor
  · intro h other hmark
    have hin : g.resolve.contains ⟨p.row, col⟩ = true := by
      rw [contains_iff] at hp ⊢
      exact ⟨hp.1, by simp only; omega⟩
    refine h ?_ other (owner?_resolve_eq_some_iff.2 ⟨hin, .inl hmark⟩)
    intro heq
    rw [heq, (mem_owners_iff_mark?.1 howner).2] at hmark
    cases hmark
  · intro h _ other hother
    obtain ⟨-, hmark | ⟨-, rfl⟩⟩ := owner?_resolve_eq_some_iff.1 hother
    · exact h other hmark
    · have hrow := hregion.1.1
      simp only [Coord.Before]
      omega

/-- An owner covers the cells of its region that it reaches unopposed. -/
theorem mark?_resolve_iff (hp : g.resolve.contains p = true) :
    g.resolve.mark? p = some owner ↔
      p ≠ owner ∧ g.resolve.Spans owner p ∧ g.resolve.Unopposed owner p := by
  have hp' : g.contains p = true := by
    rwa [contains, height_resolve, width_resolve] at hp
  rw [mark?_eq_some_iff_takes g hp', Takes]
  constructor
  · rintro ⟨hspans, hne, hfree⟩
    exact ⟨hne, hspans, (unopposed_iff hp hspans).2 hfree⟩
  · rintro ⟨hne, hspans, hfree⟩
    exact ⟨hspans, hne, (unopposed_iff hp hspans).1 hfree⟩

/-- What an owner has in a row is a run that starts at its column. -/
theorem owner?_of_run (howner : g.resolve.owner? p = some owner) (hfirst : owner.col ≤ col)
    (hlast : col ≤ p.col) : g.resolve.owner? ⟨p.row, col⟩ = some owner := by
  have hp := contains_of_owner? howner
  have hin : g.resolve.contains ⟨p.row, col⟩ = true := by
    rw [contains_iff] at hp ⊢
    exact ⟨hp.1, by simp only; omega⟩
  obtain ⟨-, hmark | ⟨hmark, rfl⟩⟩ := owner?_resolve_eq_some_iff.1 howner
  · obtain ⟨-, hspans, hunopposed⟩ := (mark?_resolve_iff hp).1 hmark
    by_cases heq : (⟨p.row, col⟩ : Coord) = owner
    · rw [heq]
      exact owner?_of_mem_owners (spans_iff.1 hspans).1
    · refine owner?_resolve_eq_some_iff.2 ⟨hin, .inl ((mark?_resolve_iff hin).2 ⟨heq, ?_, ?_⟩)⟩
      · obtain ⟨hmem, hregion⟩ := spans_iff.1 hspans
        exact spans_iff.2 ⟨hmem, hregion.1, hfirst, Nat.lt_of_le_of_lt hlast hregion.2.2⟩
      · exact fun k hk hk' => hunopposed k hk (Nat.le_trans hk' hlast)
  · obtain rfl : col = p.col := by omega
    exact howner

/-- Where an owner misses a cell of its region, an earlier owner has stopped it in that row. -/
theorem exists_opponent (hp : g.resolve.contains p = true) (hspans : g.resolve.Spans owner p)
    (hmissed : g.resolve.owner? p ≠ some owner) :
    ∃ col first, owner.col ≤ col ∧ col ≤ p.col ∧ first.Before owner ∧
      g.resolve.owner? ⟨p.row, col⟩ = some first := by
  have hopposed : ¬g.resolve.Unopposed owner p := by
    intro hunopposed
    apply hmissed
    by_cases heq : p = owner
    · rw [heq]
      exact owner?_of_mem_owners (spans_iff.1 hspans).1
    · exact owner?_resolve_eq_some_iff.2
        ⟨hp, .inl ((mark?_resolve_iff hp).2 ⟨heq, hspans, hunopposed⟩)⟩
  simp only [Unopposed, not_forall, not_not] at hopposed
  obtain ⟨col, hfirst, hlast, -, first, hfound, hbefore⟩ := hopposed
  exact ⟨col, first, hfirst, hlast, hbefore, hfound⟩

/-- First come, first served.  A cell is covered by an owner if and only if it is another cell of
    the owner's region and no cell of its row, from the owner's column up to it, belongs to an owner
    that comes earlier, row by row.  So an owner has a run without gaps in each row of its region.
    A contested cell stays with the earlier owner, unless that one has been stopped in the row by
    another one before it, and the later owner has nothing of the row from there on. -/
theorem first_owner_wins (g : Grid) :
    (∀ p owner, g.contains p = true → (g.resolve.mark? p = some owner ↔
      p ≠ owner ∧ owner ∈ g.resolve.owners ∧
        InRegion owner (g.resolve.cellAt owner).height (g.resolve.cellAt owner).width p ∧
        ∀ col, owner.col ≤ col → col ≤ p.col → ⟨p.row, col⟩ ≠ owner →
          ∀ other, g.resolve.owner? ⟨p.row, col⟩ = some other → ¬other.Before owner)) ∧
    (∀ p owner, g.resolve.owner? p = some owner → ∀ col, owner.col ≤ col → col ≤ p.col →
      g.resolve.owner? ⟨p.row, col⟩ = some owner) ∧
    (∀ p earlier later, g.resolve.Spans earlier p → earlier.Before later →
      g.resolve.owner? p = some later → ∃ col first, earlier.col ≤ col ∧ col ≤ p.col ∧
        first.Before earlier ∧ g.resolve.owner? ⟨p.row, col⟩ = some first) ∧
    ∀ p earlier later, g.resolve.Spans later p → earlier.Before later →
      g.resolve.owner? p = some earlier → ∀ col, p.col ≤ col →
        g.resolve.owner? ⟨p.row, col⟩ ≠ some later := by
  refine ⟨?_, fun p owner howner col => owner?_of_run howner, ?_, ?_⟩
  · intro p owner hp
    rw [mark?_resolve_iff (by rwa [contains, height_resolve, width_resolve]), spans_iff, and_assoc]
    rfl
  · intro p earlier later hspans hbefore hlater
    refine exists_opponent (contains_of_owner? hlater) hspans ?_
    rw [hlater, ne_eq, Option.some.injEq]
    exact hbefore.ne.symm
  · intro p earlier later hspans hbefore hearlier col hcol hlater
    have hrun := owner?_of_run hlater (spans_iff.1 hspans).2.2.1 hcol
    rw [show (⟨p.row, p.col⟩ : Coord) = p from rfl, hearlier, Option.some.injEq] at hrun
    exact hbefore.ne hrun

/-- A wide cell stops at a high one above it. -/
example :
    let g := (Grid.blank 3 3).modify ⟨0, 1⟩ fun cell => { cell with rowspan := some 3 }
    let g := (g.modify ⟨1, 0⟩ fun cell => { cell with colspan := some 3 }).resolve
    g.owner? ⟨1, 1⟩ = some ⟨0, 1⟩ ∧ g.owner? ⟨1, 2⟩ = some ⟨1, 2⟩ := by decide +kernel

end Grid

end TableGrid
