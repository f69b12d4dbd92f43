import Mathlib.Data.List.Induction
import TableGrid.Proofs.Grid.Build
import TableGrid.Proofs.Overlay.Reshape

/-!
# Layers of overlays

Overlays that are laid on a table one after the other do the same as one overlay that has, under
each key, all their patches merged in that order.  Keys have to be canonical for that: of two keys
of one cell the later one is written last in a single overlay, whichever layer it has come from.

## Key results

- `merge_assoc`, `apply_merge`: patches merged, and written one after the other
- `get?_stack`: what the single overlay has under a key
- `foldl_patchesAt_stack`: what it writes on a cell
- `grid_stack`: the grid is the same
-/

namespace TableGrid

/-! ## Patches -/

namespace Attributes

theorem merge_assoc (a b c : Attributes) : (a.merge b).merge c = a.merge (b.merge c) := by
  have hvalues : (a.values ∪ b.values) ∪ c.values = a.values ∪ (b.values ∪ c.values) :=
    Std.ExtTreeMap.ext_getElem? fun key => by
      simp only [Std.ExtTreeMap.getElem?_union, Option.or_assoc]
  have hextra : (a.extra ∪ b.extra) ∪ c.extra = a.extra ∪ (b.extra ∪ c.extra) :=
    Std.ExtTreeMap.ext_getElem? fun key => by
      simp only [Std.ExtTreeMap.getElem?_union, Option.or_assoc]
  simp only [merge, hvalues, hextra]

end Attributes

namespace Patch

theorem merge_assoc (a b c : Patch) : (a.merge b).merge c = a.merge (b.merge c) := by
  simp only [merge, Option.or_assoc, Attributes.merge_assoc]

end Patch

namespace Cell

/-- A merged patch writes what the two patches write one after the other. -/
theorem apply_merge (cell : Cell) (lower upper : Patch) :
    cell.apply (lower.merge upper) = (cell.apply lower).apply upper := by
  simp only [apply, Patch.merge, Option.or_assoc, Attributes.merge_assoc]
  cases upper.content <;> rfl

theorem apply_foldl_merge (cell : Cell) (patch : Patch) (patches : List Patch) :
    cell.apply (patches.foldl Patch.merge patch) = patches.foldl Cell.apply (cell.apply patch) := by
  induction patches generalizing patch with
  | nil => rfl
  | cons upper patches ih => rw [List.foldl_cons, List.foldl_cons, ih, apply_merge]

end Cell

/-! ## The single overlay -/

namespace Overlay

variable {overlays : List Overlay} {p : Coord} {key : String}

/-- The patches that overlays have under a key, merged in their order. -/
def mergedAt (overlays : List Overlay) (key : String) : Patch :=
  ((overlays.filterMap (·.get? key)).map Entry.toPatch).foldl Patch.merge .empty

/-- The overlay that has, for each key of any of the overlays, the patches of that key merged. -/
def stack (overlays : List Overlay) : Overlay :=
  (overlays.flatMap fun o => o.toList.map (·.1)).foldl
    (fun o key => o.insert key (.styled (mergedAt overlays key))) .empty

theorem get?_foldl_insert (value : String → Entry) (keys : List String) (o : Overlay)
    (key : String) :
    (keys.foldl (fun o key => o.insert key (value key)) o).get? key =
      if key ∈ keys then some (value key) else o.get? key := by
  induction keys generalizing o with
  | nil => simp
  | cons first keys ih =>
    rw [List.foldl_cons, ih, get?_insert]
    by_cases hfirst : first = key
    · simp [hfirst]
    · simp [hfirst, Ne.symm hfirst]

theorem get?_stack (overlays : List Overlay) (key : String) :
    (stack overlays).get? key =
      if ∃ o ∈ overlays, (o.get? key).isSome then some (.styled (mergedAt overlays key))
      else none := by
  have hkeys : key ∈ (overlays.flatMap fun o => o.toList.map (·.1)) ↔
      ∃ o ∈ overlays, (o.get? key).isSome := by
    simp only [List.mem_flatMap, List.mem_map, Prod.exists, exists_and_right, exists_eq_right,
      mem_toList, Option.isSome_iff_exists]
  rw [stack, get?_foldl_insert, get?_empty]
  simp only [hkeys]

theorem isSome_get?_stack :
    ((stack overlays).get? key).isSome ↔ ∃ o ∈ overlays, (o.get? key).isSome := by
  rw [get?_stack]
  split <;> simp_all

/-- The single overlay names the cells that any of the overlays names. -/
theorem mentions_stack : (stack overlays).Mentions p ↔ ∃ o ∈ overlays, o.Mentions p := by
  have hmentions : ∀ o : Overlay, o.Mentions p ↔
      ∃ key, (o.get? key).isSome ∧ Coord.ofAddress? key = .ok p := by
    intro o
    simp only [Mentions, Option.isSome_iff_exists, exists_and_right]
  simp only [hmentions, isSome_get?_stack]
  constructor
  · rintro ⟨key, ⟨o, ho, hsome⟩, haddr⟩
    exact ⟨o, ho, key, hsome, haddr⟩
  · rintro ⟨o, ho, key, hsome, haddr⟩
    exact ⟨key, ⟨o, ho, hsome⟩, haddr⟩

theorem canonical_stack (h : ∀ o ∈ overlays, o.Canonical) : (stack overlays).Canonical := by
  intro key p hsome haddr
  obtain ⟨o, ho, hsome⟩ := isSome_get?_stack.1 hsome
  exact h o ho key p hsome haddr

/-- The entry of an address does what all the entries of that address do. -/
theorem apply_getAt?_stack (overlays : List Overlay) (p : Coord) (cell : Cell) :
    (((stack overlays).getAt? p).toList.map Entry.toPatch).foldl Cell.apply cell =
      ((overlays.filterMap (·.getAt? p)).map Entry.toPatch).foldl Cell.apply cell := by
  have happly := Cell.apply_foldl_merge cell .empty
    ((overlays.filterMap (·.getAt? p)).map Entry.toPatch)
  rw [Cell.apply_empty] at happly
  rw [← happly, getAt?, get?_stack]
  split
  · rfl
  · rename_i hnone
    -- Without any entry there is nothing to merge.
    have hnil : overlays.filterMap (·.getAt? p) = [] := by
      rw [List.filterMap_eq_nil_iff]
      intro o ho
      by_contra hsome
      exact hnone ⟨o, ho, Option.isSome_iff_ne_none.2 hsome⟩
    rw [hnil]
    exact (Cell.apply_empty cell).symm

/-- The single overlay writes on a cell what the overlays write one after the other. -/
theorem foldl_patchesAt_stack (h : ∀ o ∈ overlays, o.Canonical) (p : Coord) (cell : Cell) :
    ((stack overlays).patchesAt p).foldl Cell.apply cell =
      (overlays.flatMap (·.patchesAt p)).foldl Cell.apply cell := by
  by_cases hfits : p.Fits
  · have hentries : overlays.flatMap (·.patchesAt p) =
        (overlays.filterMap (·.getAt? p)).map Entry.toPatch := by
      rw [List.map_filterMap, List.filterMap_eq_flatMap_toList]
      refine List.flatMap_congr fun o ho => ?_
      rw [(h o ho).patchesAt_eq hfits]
      cases o.getAt? p <;> rfl
    rw [(canonical_stack h).patchesAt_eq hfits, hentries]
    exact apply_getAt?_stack overlays p cell
  · have hnil : overlays.flatMap (·.patchesAt p) = [] :=
      List.flatMap_eq_nil_iff.2 fun o _ => o.patchesAt_of_not_fits hfits
    rw [patchesAt_of_not_fits _ hfits, hnil]

end Overlay

namespace Table

variable {t : Table} {overlays : List Overlay} {options : Options}

/-! ## The grid -/

/-- A cell takes up what the overlays write on it one after the other, if the options admit that. -/
theorem cellAt_merged_overlays (t : Table) (overlays : List Overlay) (options : Options)
    (p : Coord) :
    (t.merged overlays options).cellAt p =
      (if options.admits p then overlays.flatMap (·.patchesAt p) else []).foldl Cell.apply
        ((t.merged [] options).cellAt p) := by
  induction overlays using List.reverseRecOn with
  | nil => simp
  | append_singleton lower o ih =>
    rw [cellAt_merged_append, ih]
    split <;> simp

/-- A size that is the least one to reach all entries is so for any number of overlays. -/
theorem size_merged_le_iff (overlays : List Overlay) {size : Grid → Nat} {index : Coord → Nat}
    {n : Nat}
    (hsize : ∀ (lower : List Overlay) (o : Overlay), size (t.merged (lower ++ [o]) options) ≤ n ↔
      size (t.merged lower options) ≤ n ∧
        ∀ p, o.Mentions p → options.admits p = true → index p < n) :
    size (t.merged overlays options) ≤ n ↔ size (t.merged [] options) ≤ n ∧
      ∀ p, (∃ o ∈ overlays, o.Mentions p) → options.admits p = true → index p < n := by
  induction overlays using List.reverseRecOn with
  | nil => simp
  | append_singleton lower o ih =>
    rw [hsize, ih, and_assoc]
    refine and_congr_right' ?_
    simp only [List.mem_append, List.mem_singleton]
    constructor
    · rintro ⟨hlower, ho⟩ p ⟨o', hmem | rfl, hp⟩ hadm
      · exact hlower p ⟨o', hmem, hp⟩ hadm
      · exact ho p hp hadm
    · exact fun h => ⟨fun p ⟨o', hmem, hp⟩ => h p ⟨o', .inl hmem, hp⟩,
        fun p hp => h p ⟨o, .inr rfl, hp⟩⟩

theorem size_merged_stack {size : Grid → Nat} {index : Coord → Nat}
    (hsize : ∀ (n : Nat) (lower : List Overlay) (o : Overlay),
      size (t.merged (lower ++ [o]) options) ≤ n ↔ size (t.merged lower options) ≤ n ∧
        ∀ p, o.Mentions p → options.admits p = true → index p < n) :
    size (t.merged overlays options) = size (t.merged [Overlay.stack overlays] options) := by
  refine eq_of_forall_ge_iff fun n => ?_
  rw [size_merged_le_iff overlays (hsize n), size_merged_le_iff [_] (hsize n)]
  simp only [List.mem_singleton, exists_eq_left, Overlay.mentions_stack]

theorem merged_stack (h : ∀ o ∈ overlays, o.Canonical) :
    t.merged overlays options = t.merged [Overlay.stack overlays] options := by
  apply Grid.ext_cellAt
  · exact size_merged_stack fun _ _ _ => height_merged_append_le_iff
  · exact size_merged_stack fun _ _ _ => width_merged_append_le_iff
  · intro p _
    rw [cellAt_merged_overlays, cellAt_merged]
    split
    · rw [Overlay.foldl_patchesAt_stack h]
    · rfl

/-- Overlays with canonical keys that are laid on a table give the grid that one overlay gives,
    which has under each key the patches of all of them, merged in their order.  How patches are
    merged does not depend on how they are grouped, and a merged patch writes on a cell what its
    parts write one after the other. -/
theorem grid_stack (t : Table) (overlays : List Overlay) (options : Options)
    (hcanonical : ∀ o ∈ overlays, o.Canonical) :
    t.grid overlays options = t.grid [Overlay.stack overlays] options ∧
      (∀ key, (Overlay.stack overlays).get? key =
        if ∃ o ∈ overlays, (o.get? key).isSome then some (.styled (Overlay.mergedAt overlays key))
        else none) ∧
      (∀ a b c : Patch, (a.merge b).merge c = a.merge (b.merge c)) ∧
      ∀ (cell : Cell) (a b : Patch), cell.apply (a.merge b) = (cell.apply a).apply b := by
  refine ⟨?_, Overlay.get?_stack overlays, Patch.merge_assoc, Cell.apply_merge⟩
  rw [grid, grid, merged_stack hcanonical]

/-- A text that is cleared by an empty content, a colour that is overwritten, and a note whose key
    names no cell. -/
theorem grid_stack_cleared :
    let red : Patch := { rowspan := some 2, attributes := Attributes.empty.set .color "red" }
    let lower := ((Overlay.empty.insert "A1" (.plain (.text "x"))).insert "note"
      (.plain .empty)).insert "B2" (.styled red)
    let upper := (Overlay.empty.insert "A1" (.plain .empty)).insert
      "B2" (.styled { attributes := Attributes.empty.set .color "blue" })
    let g := (Table.ofSize 1 1).grid [Overlay.stack [lower, upper]] {}
    (Table.ofSize 1 1).grid [lower, upper] {} = g ∧
      (g.cellAt ⟨0, 0⟩).content = .empty ∧ (g.cellAt ⟨1, 1⟩).rowspan = some 2 ∧
      (g.cellAt ⟨1, 1⟩).attributes.get? .color = some "blue" := by
  intro red lower upper g
  have hcanonical : ∀ o ∈ [lower, upper], o.Canonical := by decide +kernel
  exact ⟨(grid_stack (.ofSize 1 1) [lower, upper] {} hcanonical).1, by decide +kernel,
    by decide +kernel, by decide +kernel⟩

end Table

end TableGrid
