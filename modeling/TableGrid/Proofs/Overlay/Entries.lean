import TableGrid.Overlay
import TableGrid.Proofs.Coord.Address
import TableGrid.Proofs.List

/-!
# What an overlay writes on a cell

Several keys of an overlay may name one cell.  `Overlay.patchesAt` lists what they write there,
in the order of writing, and `Overlay.patchesAt_eq` says that the entry under the address of the
cell is the last one.

## Key results

- `get?_insert`, `get?_erase`, `get?_setContent`: one entry changes, all others stay
- `setContent_comm`: contents of different cells are recorded in either order
- `address_reads_back`: every cell has a key of its own
- `mem_placements`: which coordinates an overlay names, with what is written there
- `extent_fst_le_iff`, `extent_snd_le_iff`: the size that an overlay needs
- `patchesAt_eq`: the entry under the address comes last
- `patchesAt_insert`: an entry changes what is written on its cell only
-/

namespace TableGrid

namespace Overlay

variable {o : Overlay} {p q : Coord} {key : String}

/-! ## Entries by key -/

/-- Overlays with the same entries are equal. -/
theorem ext_get? {o o' : Overlay} (h : ∀ key, o.get? key = o'.get? key) : o = o' := by
  obtain ⟨m⟩ := o
  obtain ⟨m'⟩ := o'
  congr
  exact Std.ExtTreeMap.ext_getElem? fun k => h k

@[simp] theorem get?_empty (key : String) : empty.get? key = none := by
  simp [empty, get?]

theorem get?_insert (o : Overlay) (key : String) (entry : Entry) (key' : String) :
    (o.insert key entry).get? key' = if key = key' then some entry else o.get? key' := by
  simp only [insert, get?, Std.ExtTreeMap.getElem?_insert, Std.compare_eq_iff_eq]

theorem get?_erase (o : Overlay) (key key' : String) :
    (o.erase key).get? key' = if key = key' then none else o.get? key' := by
  simp only [erase, get?, Std.ExtTreeMap.getElem?_erase, Std.compare_eq_iff_eq]

theorem mem_toList {entry : Entry} : (key, entry) ∈ o.toList ↔ o.get? key = some entry :=
  Std.ExtTreeMap.mem_toList_iff_getElem?_eq_some

theorem toList_erase (o : Overlay) (key : String) :
    (o.erase key).toList = o.toList.filter fun entry => entry.1 ≠ key := by
  -- Erasing a key is filtering by it, which lists commute with.
  have heq : (o.erase key).entries = o.entries.filter fun key' _ => key' ≠ key := by
    apply Std.ExtTreeMap.ext_getElem?
    intro key'
    rw [Std.ExtTreeMap.getElem?_filter']
    have := get?_erase o key key'
    simp only [get?] at this
    rw [this]
    cases o.entries[key']? with
    | none => simp
    | some entry => by_cases heq : key = key' <;> simp [heq, eq_comm, Option.filter]
  rw [toList, heq, Std.ExtTreeMap.toList_filter]
  rfl

theorem erase_insert (o : Overlay) (key : String) (entry : Entry) :
    (o.insert key entry).erase key = o.erase key := by
  apply ext_get?
  intro key'
  rw [get?_erase, get?_erase, get?_insert]
  split <;> rfl

theorem erase_erase (o : Overlay) (key : String) : (o.erase key).erase key = o.erase key := by
  apply ext_get?
  intro key'
  simp only [get?_erase]
  split <;> rfl

/-! ## Entries by coordinate -/

/-- Recording a content keeps whatever else the entry carries. -/
theorem setContent_eq (o : Overlay) (p : Coord) (c : Content) :
    o.setContent p c =
      o.insert p.address (((o.getAt? p).map (Entry.setContent c)).getD (.plain c)) := by
  unfold setContent
  cases o.getAt? p <;> rfl

theorem get?_setContent (o : Overlay) (p : Coord) (c : Content) (key : String) :
    (o.setContent p c).get? key =
      if p.address = key then some (((o.getAt? p).map (Entry.setContent c)).getD (.plain c))
      else o.get? key := by
  rw [setContent_eq, get?_insert]

theorem getAt?_setContent_of_ne (o : Overlay) (c : Content) (hne : p ≠ q) :
    (o.setContent p c).getAt? q = o.getAt? q := by
  rw [getAt?, get?_setContent, if_neg fun heq => hne (Coord.address_injective heq)]
  rfl

/-- Contents of different cells may be recorded in either order. -/
theorem setContent_comm (o : Overlay) (hne : p ≠ q) (c d : Content) :
    (o.setContent p c).setContent q d = (o.setContent q d).setContent p c := by
  apply ext_get?
  intro key
  simp only [get?_setContent, getAt?_setContent_of_ne _ _ hne, getAt?_setContent_of_ne _ _ hne.symm]
  split
  · rename_i hq
    rw [if_neg fun hp => hne (Coord.address_injective (hp.trans hq.symm))]
  · rfl

/-- Putting the entry from before over a recorded content takes it back. -/
theorem insert_setContent {entry : Entry} (c : Content) (h : o.getAt? p = some entry) :
    (o.setContent p c).insert p.address entry = o := by
  apply ext_get?
  intro key
  rw [get?_insert, get?_setContent]
  split
  · rename_i heq
    rw [← heq]
    exact h.symm
  · rfl

/-- Where there was no entry, erasing takes a recorded content back. -/
theorem erase_setContent (c : Content) (h : o.getAt? p = none) :
    (o.setContent p c).erase p.address = o := by
  apply ext_get?
  intro key
  rw [get?_erase, get?_setContent]
  split
  · rename_i heq
    rw [← heq]
    exact h.symm
  · rfl

/-- Below the largest word of 64 bits, the address of a cell reads back exactly: the letters give
    the column, the digits give the row, and no value on the way exceeds 64 bits.  So no other cell
    has that address, and an overlay keeps an entry of its own for every cell. -/
theorem address_reads_back {row col : Nat} (hrow : row < Text.maxWord) (hcol : col < Text.maxWord) :
    Coord.columnOfLetters? (String.ofList (Coord.columnLetters col)) = .ok col ∧
      Text.readDigits Text.maxWord 0 (Text.digits (row + 1)) = .ok (row + 1) ∧
      Coord.ofAddress? (Coord.address ⟨row, col⟩) = .ok ⟨row, col⟩ ∧
      (∀ q : Coord, q.address = Coord.address ⟨row, col⟩ → q = ⟨row, col⟩) ∧
      ∀ (o : Overlay) (entry : Entry) (q : Coord),
        (o.insert (Coord.address ⟨row, col⟩) entry).getAt? q =
          if q = ⟨row, col⟩ then some entry else o.getAt? q := by
  have hfits : (⟨row, col⟩ : Coord).Fits := ⟨hrow, hcol⟩
  have hinj : ∀ q : Coord, q.address = Coord.address ⟨row, col⟩ → q = ⟨row, col⟩ :=
    fun q heq => ((Coord.address_inj hfits).1 heq.symm).symm
  refine ⟨Coord.columnOfLetters?_columnLetters hcol, Text.readDigits_digits hrow,
    Coord.ofAddress?_address hfits, hinj, fun o entry q => ?_⟩
  rw [getAt?, get?_insert, getAt?]
  by_cases heq : q = ⟨row, col⟩
  · rw [if_pos heq, if_pos (by rw [heq])]
  · rw [if_neg heq, if_neg fun h => heq (hinj q h.symm)]

/-- The last cell of all reads back. -/
theorem address_reads_back_last :
    Coord.ofAddress? (Coord.address ⟨18446744073709551614, 18446744073709551614⟩) =
      .ok ⟨18446744073709551614, 18446744073709551614⟩ :=
  (address_reads_back (by decide) (by decide)).2.2.1

/-! ## Placements -/

theorem mem_placements {patch : Patch} :
    (p, patch) ∈ o.placements ↔
      ∃ key entry, o.get? key = some entry ∧ Coord.ofAddress? key = .ok p ∧
        entry.toPatch = patch := by
  simp only [placements, List.mem_filterMap, Prod.exists]
  constructor
  · rintro ⟨key, entry, hmem, heq⟩
    cases haddr : Coord.ofAddress? key with
    | error fault =>
      rw [haddr] at heq
      cases heq
    | ok p' =>
      rw [haddr] at heq
      simp only [Option.some.injEq, Prod.mk.injEq] at heq
      exact ⟨key, entry, mem_toList.1 hmem, by rw [haddr, heq.1], heq.2⟩
  · rintro ⟨key, entry, hget, haddr, rfl⟩
    exact ⟨key, entry, mem_toList.2 hget, by rw [haddr]⟩

@[simp] theorem placements_empty : empty.placements = [] := by
  rw [List.eq_nil_iff_forall_not_mem]
  rintro ⟨p, patch⟩ hmem
  obtain ⟨key, entry, hget, -⟩ := mem_placements.1 hmem
  rw [get?_empty] at hget
  cases hget

/-- Whether some key of an overlay names a coordinate. -/
def Mentions (o : Overlay) (p : Coord) : Prop :=
  ∃ key entry, o.get? key = some entry ∧ Coord.ofAddress? key = .ok p

theorem mentions_iff : o.Mentions p ↔ ∃ patch, (p, patch) ∈ o.placements := by
  constructor
  · rintro ⟨key, entry, hget, haddr⟩
    exact ⟨entry.toPatch, mem_placements.2 ⟨key, entry, hget, haddr, rfl⟩⟩
  · rintro ⟨patch, hmem⟩
    obtain ⟨key, entry, hget, haddr, -⟩ := mem_placements.1 hmem
    exact ⟨key, entry, hget, haddr⟩

theorem Mentions.fits (h : o.Mentions p) : p.Fits := by
  obtain ⟨key, entry, -, haddr⟩ := h
  exact (Coord.spelling_of_ofAddress? haddr).1

/-- An entry under the address of a cell mentions no other one. -/
theorem of_mentions_insert {entry : Entry} (h : (o.insert p.address entry).Mentions q) :
    o.Mentions q ∨ p = q := by
  obtain ⟨key, entry', hget, haddr⟩ := h
  rw [get?_insert] at hget
  split at hget
  · rename_i heq
    rw [← heq] at haddr
    exact .inr (Coord.eq_of_ofAddress?_address haddr)
  · exact .inl ⟨key, entry', hget, haddr⟩

/-- What is mentioned stays so when an entry is stored. -/
theorem Mentions.insert (h : o.Mentions q) (key : String) (entry : Entry) :
    (o.insert key entry).Mentions q := by
  obtain ⟨key', entry', hget, haddr⟩ := h
  by_cases heq : key = key'
  · exact ⟨key', _, by rw [get?_insert, if_pos heq], haddr⟩
  · exact ⟨key', entry', by rw [get?_insert, if_neg heq, hget], haddr⟩

/-- An entry under the address of a cell mentions that cell and no other one. -/
theorem mentions_insert (o : Overlay) (entry : Entry) (h : p.Fits) :
    (o.insert p.address entry).Mentions q ↔ o.Mentions q ∨ p = q := by
  refine ⟨of_mentions_insert, ?_⟩
  rintro (hq | rfl)
  · exact hq.insert p.address entry
  · exact ⟨p.address, entry, by rw [get?_insert, if_pos rfl], Coord.ofAddress?_address h⟩

theorem Mentions.setContent (h : o.Mentions q) (p : Coord) (c : Content) :
    (o.setContent p c).Mentions q := by
  rw [setContent_eq]
  exact h.insert p.address _

theorem mentions_setContent (o : Overlay) (c : Content) (h : p.Fits) :
    (o.setContent p c).Mentions q ↔ o.Mentions q ∨ p = q := by
  rw [setContent_eq]
  exact mentions_insert o _ h

/-- The number of rows is the least one to reach all cells mentioned. -/
theorem extent_fst_le_iff {n : Nat} : o.extent.1 ≤ n ↔ ∀ p, o.Mentions p → p.row < n := by
  have heq : o.extent.1 = o.placements.foldl (fun m write => max m (write.1.row + 1)) 0 :=
    (List.foldl_hom Prod.fst fun _ _ => rfl).symm
  rw [heq, List.foldl_max_le_iff]
  simp only [Nat.zero_le, true_and, mentions_iff, forall_exists_index, Prod.forall,
    Nat.add_one_le_iff]

/-- The number of columns is the least one to reach all cells mentioned. -/
theorem extent_snd_le_iff {n : Nat} : o.extent.2 ≤ n ↔ ∀ p, o.Mentions p → p.col < n := by
  have heq : o.extent.2 = o.placements.foldl (fun m write => max m (write.1.col + 1)) 0 :=
    (List.foldl_hom Prod.snd fun _ _ => rfl).symm
  rw [heq, List.foldl_max_le_iff]
  simp only [Nat.zero_le, true_and, mentions_iff, forall_exists_index, Prod.forall,
    Nat.add_one_le_iff]

/-- What an overlay writes on a cell, in the order of writing. -/
def patchesAt (o : Overlay) (p : Coord) : List Patch :=
  (o.placements.filter fun placement => placement.1 = p).map (·.2)

theorem patchesAt_eq_nil (h : ¬o.Mentions p) : o.patchesAt p = [] := by
  rw [patchesAt, List.map_eq_nil_iff, List.filter_eq_nil_iff]
  rintro ⟨q, patch⟩ hmem hq
  rw [decide_eq_true_eq] at hq
  exact h (mentions_iff.2 ⟨patch, hq ▸ hmem⟩)

/-- A cell without an address is not written at all. -/
theorem patchesAt_of_not_fits (o : Overlay) (h : ¬p.Fits) : o.patchesAt p = [] :=
  patchesAt_eq_nil fun hmentions => h hmentions.fits

/-- Whether a key names a coordinate. -/
def names (p : Coord) (key : String) : Bool := Coord.ofAddress? key = .ok p

theorem patchesAt_eq_map (o : Overlay) (p : Coord) :
    o.patchesAt p = (o.toList.filter fun entry => names p entry.1).map (·.2.toPatch) := by
  unfold patchesAt placements
  induction o.toList with
  | nil => rfl
  | cons head tail ih =>
    obtain ⟨key, entry⟩ := head
    rw [List.filterMap_cons, List.filter_cons]
    cases haddr : Coord.ofAddress? key with
    | error fault => simpa [names, haddr] using ih
    | ok q =>
      by_cases hq : q = p
      · simpa [names, haddr, hq] using ih
      · simpa [names, haddr, hq] using ih

/-- An entry does not matter where its key names another cell or none. -/
theorem patchesAt_erase (o : Overlay) (h : names p key = false) :
    (o.erase key).patchesAt p = o.patchesAt p := by
  rw [patchesAt_eq_map, patchesAt_eq_map, toList_erase, List.filter_filter]
  congr 1
  apply List.filter_congr
  rintro ⟨key', entry⟩ -
  by_cases heq : key' = key
  · simp [heq, h]
  · simp [heq]

theorem patchesAt_insert (o : Overlay) (entry : Entry) (h : names p key = false) :
    (o.insert key entry).patchesAt p = o.patchesAt p := by
  rw [← patchesAt_erase _ h, erase_insert, patchesAt_erase _ h]

theorem names_address (h : p.Fits) : names p p.address = true := by
  simp [names, Coord.ofAddress?_address h]

theorem names_address_of_ne (h : p ≠ q) : names q p.address = false := by
  simp only [names, decide_eq_false_iff_not]
  intro heq
  exact h (Coord.eq_of_ofAddress?_address heq)

/-- The entry under the address of a cell is written last; aliases of the address come before. -/
theorem patchesAt_eq (o : Overlay) (h : p.Fits) :
    o.patchesAt p =
      (o.erase p.address).patchesAt p ++ (o.getAt? p).toList.map Entry.toPatch := by
  cases hget : o.getAt? p with
  | none =>
    -- There is nothing to erase.
    have herase : o.erase p.address = o := by
      apply ext_get?
      intro key
      rw [get?_erase]
      split
      · rename_i heq
        rw [← heq]
        exact hget.symm
      · rfl
    simp [herase]
  | some entry =>
    -- All keys that name the cell come before its address, and the list is sorted by key.
    have hsorted : o.toList.Pairwise fun a b => compare a.1 b.1 = .lt :=
      Std.ExtTreeMap.ordered_keys_toList
    have hlast : ∀ key, names p key = true → key = p.address ∨ compare key p.address = .lt := by
      intro key hkey
      exact Coord.eq_or_lt_of_ofAddress? (by simpa [names] using hkey)
    rw [patchesAt_eq_map, patchesAt_eq_map, toList_erase,
      List.filter_eq_append_of_last hsorted (mem_toList.2 hget) (names_address h) hlast,
      List.map_append]
    rfl

end Overlay

end TableGrid
