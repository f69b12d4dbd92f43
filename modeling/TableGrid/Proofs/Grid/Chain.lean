import Mathlib.Dynamics.PeriodicPts.Defs
import TableGrid.Proofs.Grid.Owners

/-!
# Chains of marks

The mark of a cell names at most one cell, so the marks that start at a cell make one chain. It ends
at a cell without a mark or with a mark that leaves the grid, or it runs into a cycle. Following as
many marks as the grid has cells decides which: among one more than that many cells some cell comes
twice, so by then the chain has ended or is on its cycle.

Nothing is assumed of the marks here; those of resolved grids have chains of one mark at most.

## Key results

- `iterate_length_mem_periodicPts`: where a function arrives in a list that it maps to itself
- `ends_or_cyclic_of_owner?`: the owner of a cell is on its chain, at the end or on a cycle
- `Cyclic.leads_symm`, `Ends.not_cyclic`: a chain does not leave a cycle, and does not end on it
- `owner?_eq_end_or_on_cycle`: all of it together
-/

/-- A function that maps a list to itself comes to a cycle in as many steps as the list has
    items. -/
theorem Function.iterate_length_mem_periodicPts {α : Type} [DecidableEq α] {f : α → α}
    {xs : List α} (hf : ∀ x ∈ xs, f x ∈ xs) {x : α} (hx : x ∈ xs) :
    f^[xs.length] x ∈ Function.periodicPts f := by
  have hmaps : ∀ n, f^[n] x ∈ xs := by
    intro n
    induction n with
    | zero => exact hx
    | succ n ih =>
      rw [Function.iterate_succ_apply']
      exact hf _ ih
  -- There are more steps than items, so two of them arrive at the same one.
  have hcard : xs.toFinset.card < (Finset.range (xs.length + 1)).card := by
    have hle := xs.toFinset_card_le
    rw [Finset.card_range]
    omega
  obtain ⟨m, hm, n, hn, hne, heq⟩ := Finset.exists_ne_map_eq_of_card_lt_of_maps_to hcard
    fun n _ => List.mem_toFinset.2 (hmaps n)
  rw [Finset.mem_range] at hm hn
  wlog hlt : m < n generalizing m n
  · exact this n hn m hm hne.symm heq.symm (by omega)
  -- The earlier one is on a cycle, and so is all that comes after it.
  have hperiodic : Function.IsPeriodicPt f (n - m) (f^[m] x) := by
    show f^[n - m] (f^[m] x) = f^[m] x
    rw [← Function.iterate_add_apply, Nat.sub_add_cancel (by omega)]
    exact heq.symm
  have hlater := hperiodic.apply_iterate (xs.length - m)
  rw [← Function.iterate_add_apply, Nat.sub_add_cancel (by omega)] at hlater
  exact Function.mk_mem_periodicPts (by omega) hlater

namespace TableGrid

namespace Grid

variable {g : Grid} {p q r owner : Coord} {n : Nat}

/-! ## Chains -/

/-- Whether the mark of a cell names another cell, or itself, inside the grid. -/
def Marks (g : Grid) (p q : Coord) : Prop := g.mark? p = some q ∧ g.contains q = true

instance (g : Grid) (p q : Coord) : Decidable (g.Marks p q) := inferInstanceAs (Decidable (_ ∧ _))

/-- Whether the marks that start at a cell come to another one. -/
def Leads (g : Grid) (p q : Coord) : Prop := Relation.ReflTransGen g.Marks p q

/-- Whether a chain ends at a cell: it has no mark, or one that leaves the grid. -/
def Ends (g : Grid) (p : Coord) : Prop := ∀ q, g.mark? p = some q → g.contains q = false

/-- Whether the marks that start at a cell come back to it. -/
def Cyclic (g : Grid) (p : Coord) : Prop := Relation.TransGen g.Marks p p

theorem Ends.not_marks (h : g.Ends p) (q : Coord) : ¬g.Marks p q := by
  intro hmarks
  have hout := h q hmarks.1
  rw [hmarks.2] at hout
  cases hout

theorem rightUnique_marks (g : Grid) : Relator.RightUnique g.Marks := by
  intro p q r hq hr
  exact Option.some.inj (hq.1.symm.trans hr.1)

/-- Nothing comes after the end of a chain. -/
theorem Ends.eq_of_leads (h : g.Ends p) (hleads : g.Leads p q) : q = p := by
  cases hleads.cases_head with
  | inl heq => exact heq.symm
  | inr hnext =>
    obtain ⟨r, hmarks, -⟩ := hnext
    exact absurd hmarks (h.not_marks r)

theorem Ends.not_cyclic (h : g.Ends p) : ¬g.Cyclic p := by
  intro hcyclic
  obtain ⟨r, hmarks, -⟩ := Relation.TransGen.head'_iff.1 hcyclic
  exact h.not_marks r hmarks

/-- A chain does not leave a cycle. -/
theorem Cyclic.leads_symm (h : g.Cyclic p) (hleads : g.Leads p q) : g.Leads q p := by
  induction hleads with
  | refl => exact .refl
  | tail _ hmarks ih =>
    -- The next cell is the one that the way back goes through, or the cycle starts anew there.
    rename_i q r _
    have hback : ∃ s, g.Marks q s ∧ g.Leads s p := by
      cases ih.cases_head with
      | inl heq =>
        subst heq
        exact Relation.TransGen.head'_iff.1 h
      | inr hnext => exact hnext
    obtain ⟨s, hs, hleads⟩ := hback
    rwa [rightUnique_marks g hmarks hs]

/-! ## Following a chain -/

/-- At the end of a chain the number of steps does not count. -/
theorem follow_of_ends (h : g.Ends p) (n : Nat) : g.follow n p = p := by
  cases n with
  | zero => rfl
  | succ n =>
    cases hmark : g.mark? p with
    | none => simp [follow, hmark]
    | some q => simp [follow, hmark, h q hmark]

theorem follow_of_marks (h : g.Marks p q) (n : Nat) : g.follow (n + 1) p = g.follow n q := by
  simp [follow, h.1, h.2]

/-- The next cell of a chain; at its end, the same one. -/
def next (g : Grid) (p : Coord) : Coord := g.follow 1 p

theorem next_of_ends (h : g.Ends p) : g.next p = p := follow_of_ends h 1

theorem next_of_marks (h : g.Marks p q) : g.next p = q := follow_of_marks h 0

theorem ends_or_marks (g : Grid) (p : Coord) : g.Ends p ∨ g.Marks p (g.next p) := by
  by_cases h : ∃ q, g.Marks p q
  · obtain ⟨q, hq⟩ := h
    rw [next_of_marks hq]
    exact .inr hq
  · refine .inl fun q hq => ?_
    rw [← Bool.not_eq_true]
    exact fun hin => h ⟨q, hq, hin⟩

theorem leads_next (g : Grid) (p : Coord) : g.Leads p (g.next p) := by
  cases g.ends_or_marks p with
  | inl hends =>
    rw [next_of_ends hends]
    exact .refl
  | inr hmarks => exact .single hmarks

theorem leads_iterate (g : Grid) (p : Coord) (n : Nat) : g.Leads p (g.next^[n] p) := by
  induction n with
  | zero => exact .refl
  | succ n ih =>
    rw [Function.iterate_succ_apply']
    exact ih.trans (g.leads_next _)

/-- Following marks is going to the next cell that many times. -/
theorem follow_eq_iterate (g : Grid) (n : Nat) (p : Coord) : g.follow n p = g.next^[n] p := by
  induction n generalizing p with
  | zero => rfl
  | succ n ih =>
    rw [Function.iterate_succ_apply, ← ih]
    cases g.ends_or_marks p with
    | inl hends => rw [next_of_ends hends, follow_of_ends hends, follow_of_ends hends]
    | inr hmarks => exact follow_of_marks hmarks n

theorem length_coords (g : Grid) : g.coords.length = g.height * g.width := by
  simp [coords, List.length_flatMap]

/-- After as many steps as there are cells, the chain of a cell is at its end or on a cycle. -/
theorem iterate_mem_periodicPts (h : g.contains p = true) :
    g.next^[g.height * g.width] p ∈ Function.periodicPts g.next := by
  rw [← length_coords]
  refine Function.iterate_length_mem_periodicPts (fun q hq => ?_) (mem_coords.2 h)
  exact mem_coords.2 (contains_follow (mem_coords.1 hq) 1)

/-- A cell to which the steps come back ends a chain, or is on a cycle. -/
theorem ends_or_cyclic_of_mem_periodicPts (h : p ∈ Function.periodicPts g.next) :
    g.Ends p ∨ g.Cyclic p := by
  cases g.ends_or_marks p with
  | inl hends => exact .inl hends
  | inr hmarks =>
    obtain ⟨n, hpos, hperiod⟩ := Function.mem_periodicPts.1 h
    have hback : g.next^[n - 1] (g.next p) = p := by
      rw [← Function.iterate_succ_apply, Nat.succ_eq_add_one, Nat.sub_add_cancel hpos]
      exact hperiod
    have hleads := g.leads_iterate (g.next p) (n - 1)
    rw [hback] at hleads
    exact .inr (.head' hmarks hleads)

/-- The owner of a cell is on its chain, at the end or on a cycle. -/
theorem ends_or_cyclic_of_owner? (h : g.owner? p = some owner) :
    g.Leads p owner ∧ (g.Ends owner ∨ g.Cyclic owner) := by
  have hin := contains_of_owner? h
  rw [owner?, if_pos hin, Option.some.injEq, follow_eq_iterate] at h
  subst h
  exact ⟨g.leads_iterate p _, ends_or_cyclic_of_mem_periodicPts (iterate_mem_periodicPts hin)⟩

/-- Two cells of a chain come one after the other. -/
theorem Leads.total (hq : g.Leads p q) (hr : g.Leads p r) : g.Leads q r ∨ g.Leads r q :=
  Relation.ReflTransGen.total_of_right_unique (rightUnique_marks g) hq hr

/-- The end of the chain of a cell is its owner. -/
theorem owner?_of_ends (hin : g.contains p = true) (hleads : g.Leads p q) (hends : g.Ends q) :
    g.owner? p = some q := by
  obtain ⟨owner, howner⟩ := owner?_isSome hin
  obtain ⟨hown, hstop⟩ := ends_or_cyclic_of_owner? howner
  have hto : g.Leads owner q := by
    cases hown.total hleads with
    | inl hto => exact hto
    | inr hfrom =>
      rw [hends.eq_of_leads hfrom]
      exact .refl
  cases hstop with
  | inl hlast => rw [howner, hlast.eq_of_leads hto]
  | inr hcyclic =>
    rw [howner, hends.eq_of_leads (hcyclic.leads_symm hto)]

/-- The owner of a cell whose chain runs into a cycle is on this cycle. -/
theorem owner?_of_cyclic (hin : g.contains p = true) (hleads : g.Leads p q) (hcyclic : g.Cyclic q) :
    ∃ owner, g.owner? p = some owner ∧ g.Leads q owner ∧ g.Leads owner q ∧ g.Cyclic owner := by
  obtain ⟨owner, howner⟩ := owner?_isSome hin
  obtain ⟨hown, hstop⟩ := ends_or_cyclic_of_owner? howner
  have hto : g.Leads owner q := by
    cases hown.total hleads with
    | inl hto => exact hto
    | inr hfrom => exact hcyclic.leads_symm hfrom
  cases hstop with
  | inl hlast =>
    -- Then the cycle would start at the end of the chain.
    rw [hlast.eq_of_leads hto] at hcyclic
    exact absurd hcyclic hlast.not_cyclic
  | inr hcycle => exact ⟨owner, howner, hcycle.leads_symm hto, hto, hcycle⟩

/-- Every cell of a grid has an owner, whatever the marks are, and it is a cell of the grid. If the
    chain of the cell ends, however far away, the owner is its last cell; if it does not, it runs
    into a cycle, and the owner is on this cycle. -/
theorem owner?_eq_end_or_on_cycle (g : Grid) (p : Coord) :
    (g.owner? p = none ↔ g.contains p = false) ∧
    (∀ owner, g.owner? p = some owner → g.contains owner = true) ∧
    (g.contains p = true →
      (∀ last, g.Leads p last → g.Ends last → g.owner? p = some last) ∧
      ((¬∃ last, g.Leads p last ∧ g.Ends last) ↔ ∃ q, g.Leads p q ∧ g.Cyclic q) ∧
      ∀ q, g.Leads p q → g.Cyclic q →
        ∃ owner, g.owner? p = some owner ∧ g.Leads q owner ∧ g.Leads owner q ∧ g.Cyclic owner) := by
  have hnone : g.owner? p = none ↔ g.contains p = false := by
    unfold owner?
    split <;> simp_all
  refine ⟨hnone, fun owner howner => contains_owner howner, fun hin => ?_⟩
  have hends : ∀ last, g.Leads p last → g.Ends last → g.owner? p = some last :=
    fun last => owner?_of_ends hin
  have hcyclic : ∀ q, g.Leads p q → g.Cyclic q → ∃ owner, g.owner? p = some owner ∧
      g.Leads q owner ∧ g.Leads owner q ∧ g.Cyclic owner := fun q => owner?_of_cyclic hin
  refine ⟨hends, ⟨fun hno => ?_, ?_⟩, hcyclic⟩
  · -- The owner itself is on the cycle.
    obtain ⟨owner, howner⟩ := owner?_isSome hin
    obtain ⟨hleads, hstop⟩ := ends_or_cyclic_of_owner? howner
    exact ⟨owner, hleads, hstop.resolve_left fun hlast => hno ⟨owner, hleads, hlast⟩⟩
  · intro ⟨q, hq, hcycle⟩ ⟨last, hlast, hend⟩
    obtain ⟨owner, howner, -, -, hown⟩ := hcyclic q hq hcycle
    rw [hends last hlast hend, Option.some.injEq] at howner
    rw [← howner] at hown
    exact hend.not_cyclic hown

/-- A grid with a chain along its first row that leaves it at the end, and a cycle in the second
    row. -/
def wired : Grid :=
  [(⟨0, 3⟩, ⟨0, 2⟩), (⟨0, 2⟩, ⟨0, 1⟩), (⟨0, 1⟩, ⟨0, 0⟩), (⟨0, 0⟩, ⟨7, 7⟩),
      (⟨1, 0⟩, ⟨1, 1⟩), (⟨1, 1⟩, ⟨1, 2⟩), (⟨1, 2⟩, ⟨1, 1⟩), (⟨1, 3⟩, ⟨1, 3⟩)].foldl
    (fun g (mark : Coord × Coord) =>
      g.modify mark.1 fun cell => { cell with subsumedBy := some mark.2 })
    (blank 2 4)

theorem owner?_eq_end_or_on_cycle_wired :
    (wired.contains ⟨0, 3⟩ = true ∧ wired.Leads ⟨0, 3⟩ ⟨0, 0⟩ ∧ wired.Ends ⟨0, 0⟩ ∧
      wired.owner? ⟨0, 3⟩ = some ⟨0, 0⟩) ∧
    (wired.contains ⟨1, 0⟩ = true ∧ wired.Leads ⟨1, 0⟩ ⟨1, 2⟩ ∧ wired.Cyclic ⟨1, 2⟩ ∧
      ∃ owner, wired.owner? ⟨1, 0⟩ = some owner ∧ wired.Leads ⟨1, 2⟩ owner ∧
        wired.Cyclic owner) := by
  have hfirst : wired.contains ⟨0, 3⟩ = true := by decide
  have hchain : wired.Leads ⟨0, 3⟩ ⟨0, 0⟩ :=
    .head (b := ⟨0, 2⟩) (by decide) (.head (b := ⟨0, 1⟩) (by decide) (.single (by decide)))
  have hend : wired.Ends ⟨0, 0⟩ := by
    intro q hq
    have hmark : wired.mark? ⟨0, 0⟩ = some ⟨7, 7⟩ := by decide
    obtain rfl := Option.some.inj (hmark.symm.trans hq)
    decide
  have hsecond : wired.contains ⟨1, 0⟩ = true := by decide
  have htail : wired.Leads ⟨1, 0⟩ ⟨1, 2⟩ := .head (b := ⟨1, 1⟩) (by decide) (.single (by decide))
  have hcycle : wired.Cyclic ⟨1, 2⟩ := .head (b := ⟨1, 1⟩) (by decide) (.single (by decide))
  obtain ⟨owner, howner, hto, -, hon⟩ :=
    ((owner?_eq_end_or_on_cycle wired ⟨1, 0⟩).2.2 hsecond).2.2 _ htail hcycle
  exact ⟨⟨hfirst, hchain, hend,
      ((owner?_eq_end_or_on_cycle wired ⟨0, 3⟩).2.2 hfirst).1 _ hchain hend⟩,
    hsecond, htail, hcycle, owner, howner, hto, hon⟩

end Grid

end TableGrid
