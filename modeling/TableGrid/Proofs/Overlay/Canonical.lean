import Mathlib.Data.List.Induction
import TableGrid.Proofs.Overlay.Contents
import TableGrid.Proofs.Table.Shift

/-!
# Overlays with canonical keys

Where every key that names a cell is the address of that cell, an overlay is a map on cells.  A
change of shape moves the entries of such a map along with the cells, and leaves canonical keys
whatever the keys were before.

## Key results

- `Canonical.patchesAt_eq`: one entry at most is written on a cell
- `Canonical.setContent`: recording a content keeps keys canonical
- `get?_reshape`: what is under a key after a change of shape
- `Canonical.getAt?_reshape`: an entry goes where its cell goes
- `mentions_reshape`, `Mentions.reshape`: which cells are mentioned after a change of shape
- `canonical_reshape`: keys are canonical after a change of shape
-/

namespace TableGrid

namespace Overlay

variable {o : Overlay} {r : Reshape} {p q : Coord}

/-- Whether all keys that name a cell are the address of that cell. -/
def Canonical (o : Overlay) : Prop :=
  ∀ key p, (o.get? key).isSome → Coord.ofAddress? key = .ok p → key = p.address

theorem canonical_empty : empty.Canonical := by
  intro key p h
  rw [get?_empty] at h
  cases h

theorem mentions_of_getAt? (hfits : p.Fits) (h : (o.getAt? p).isSome) : o.Mentions p := by
  obtain ⟨entry, hentry⟩ := Option.isSome_iff_exists.1 h
  exact ⟨p.address, entry, hentry, Coord.ofAddress?_address hfits⟩

theorem Canonical.mentions_iff (h : o.Canonical) : o.Mentions p ↔ p.Fits ∧ (o.getAt? p).isSome := by
  constructor
  · rintro ⟨key, entry, hget, haddr⟩
    obtain rfl := h key p (by rw [hget]; rfl) haddr
    exact ⟨Mentions.fits ⟨_, entry, hget, haddr⟩, by rw [getAt?, hget]; rfl⟩
  · rintro ⟨hfits, hsome⟩
    exact mentions_of_getAt? hfits hsome

/-- No key but its address names a cell. -/
theorem Canonical.patchesAt_erase_address (h : o.Canonical) (p : Coord) :
    (o.erase p.address).patchesAt p = [] := by
  rw [patchesAt_eq_map, List.map_eq_nil_iff, List.filter_eq_nil_iff]
  rintro ⟨key, entry⟩ hmem hname
  rw [mem_toList, get?_erase] at hmem
  split at hmem
  · cases hmem
  · rename_i hne
    have hkey := h key p (by rw [hmem]; rfl) (by simpa [names] using hname)
    exact hne hkey.symm

/-- Of the entries of an overlay, one at most is written on a cell. -/
theorem Canonical.patchesAt_eq (h : o.Canonical) (hfits : p.Fits) :
    o.patchesAt p = (o.getAt? p).toList.map Entry.toPatch := by
  rw [Overlay.patchesAt_eq o hfits, h.patchesAt_erase_address, List.nil_append]

theorem Canonical.setContent (h : o.Canonical) (p : Coord) (c : Content) :
    (o.setContent p c).Canonical := by
  intro key q hsome haddr
  rw [get?_setContent] at hsome
  split at hsome
  · rename_i heq
    rw [← heq] at haddr
    rw [← heq, Coord.eq_of_ofAddress?_address haddr]
  · exact h key q hsome haddr

/-! ## Changes of shape -/

/-- Where a change of shape takes a key. -/
def moved? (r : Reshape) (key : String) : Option String :=
  match Coord.ofAddress? key with
  | .ok p => (r.move? p).map Coord.address
  | .error _ => some key

/-- A key goes where the cell that it names goes. -/
theorem moved?_of_move? {key : String} (haddr : Coord.ofAddress? key = .ok p)
    (hmove : r.move? p = some q) : moved? r key = some q.address := by
  simp only [moved?, haddr, hmove, Option.map_some]

theorem moveEntry_eq (r : Reshape) (target : Overlay) (key : String) (entry : Entry) :
    moveEntry r target key entry =
      ((moved? r key).map fun key' => target.insert key' entry).getD target := by
  unfold moveEntry moved?
  cases Coord.ofAddress? key with
  | error fault => rfl
  | ok p => cases hmove : r.move? p <;> simp [hmove]

theorem get?_moveEntry (r : Reshape) (target : Overlay) (key : String) (entry : Entry)
    (key' : String) :
    (moveEntry r target key entry).get? key' =
      if moved? r key = some key' then some entry else target.get? key' := by
  rw [moveEntry_eq]
  cases moved? r key with
  | none => rfl
  | some key'' =>
    rw [Option.map_some, Option.getD_some, get?_insert]
    simp only [Option.some.injEq]

/-- Of the entries that move to a key, the last one stays there. -/
theorem get?_reshape (o : Overlay) (r : Reshape) (key' : String) :
    (o.reshape r).get? key' =
      ((o.toList.filter fun write => moved? r write.1 = some key').getLast?).map (·.2) := by
  rw [reshape]
  -- By induction on the entries from the end, as each entry overwrites those before it.
  induction o.toList using List.reverseRecOn with
  | nil => exact get?_empty key'
  | append_singleton writes write ih =>
    rw [List.foldl_append, List.foldl_cons, List.foldl_nil, get?_moveEntry, List.filter_append, ih]
    by_cases hmoved : moved? r write.1 = some key' <;> simp [hmoved]

/-- Every entry of a reshaped overlay was there before, under a key that has moved. -/
theorem exists_of_get?_reshape {key' : String} {entry : Entry}
    (h : (o.reshape r).get? key' = some entry) :
    ∃ key, o.get? key = some entry ∧ moved? r key = some key' := by
  rw [get?_reshape, Option.map_eq_some_iff] at h
  obtain ⟨write, hlast, rfl⟩ := h
  obtain ⟨hmem, hmoved⟩ := List.mem_filter.1 (List.mem_of_getLast? hlast)
  exact ⟨write.1, mem_toList.1 hmem, of_decide_eq_true hmoved⟩

/-- A key that moves leaves an entry where it goes, which another key may have overwritten. -/
theorem isSome_get?_reshape {key key' : String} (h : (o.get? key).isSome)
    (hmoved : moved? r key = some key') : ((o.reshape r).get? key').isSome := by
  obtain ⟨entry, hentry⟩ := Option.isSome_iff_exists.1 h
  have hmem : (key, entry) ∈ o.toList.filter fun write => moved? r write.1 = some key' :=
    List.mem_filter.2 ⟨mem_toList.2 hentry, decide_eq_true hmoved⟩
  rw [get?_reshape, Option.isSome_map, List.getLast?_isSome]
  exact List.ne_nil_of_mem hmem

/-- A key that names a cell after a change of shape is its address, and named the cell that has
    gone there. -/
theorem eq_of_moved? {key key' : String} (hmoved : moved? r key = some key')
    (haddr : Coord.ofAddress? key' = .ok q) :
    key' = q.address ∧ ∃ p, Coord.ofAddress? key = .ok p ∧ r.move? p = some q := by
  unfold moved? at hmoved
  cases hkey : Coord.ofAddress? key with
  | error fault =>
    rw [hkey] at hmoved
    obtain rfl := Option.some.inj hmoved
    rw [hkey] at haddr
    cases haddr
  | ok p =>
    rw [hkey] at hmoved
    obtain ⟨q', hmove, rfl⟩ := Option.map_eq_some_iff.1 hmoved
    obtain rfl := Coord.eq_of_ofAddress?_address haddr
    exact ⟨rfl, p, rfl, hmove⟩

/-- A change of shape leaves canonical keys. -/
theorem canonical_reshape (o : Overlay) (r : Reshape) : (o.reshape r).Canonical := by
  intro key' q hsome haddr
  obtain ⟨entry, hentry⟩ := Option.isSome_iff_exists.1 hsome
  obtain ⟨key, -, hmoved⟩ := exists_of_get?_reshape hentry
  exact (eq_of_moved? hmoved haddr).1

/-- A cell is mentioned after a change of shape if it was mentioned where it came from. -/
theorem mentions_reshape (h : (o.reshape r).Mentions q) :
    ∃ p, o.Mentions p ∧ r.move? p = some q := by
  obtain ⟨key', entry, hget, haddr⟩ := h
  obtain ⟨key, hentry, hmoved⟩ := exists_of_get?_reshape hget
  obtain ⟨-, p, hkey, hmove⟩ := eq_of_moved? hmoved haddr
  exact ⟨p, ⟨key, entry, hentry, hkey⟩, hmove⟩

/-- A cell that is mentioned still is where it goes, if it has an address there. -/
theorem Mentions.reshape (h : o.Mentions p) (hmove : r.move? p = some q) (hq : q.Fits) :
    (o.reshape r).Mentions q := by
  obtain ⟨key, entry, hget, haddr⟩ := h
  have hmoved := moved?_of_move? haddr hmove
  exact mentions_of_getAt? hq (isSome_get?_reshape (by rw [hget]; rfl) hmoved)

/-- As long as all cells have an address where they go, those mentioned are the ones that come from
    cells mentioned before. -/
theorem mentions_reshape_iff
    (hfits : ∀ p q, o.Mentions p → r.move? p = some q → q.Fits) :
    (o.reshape r).Mentions q ↔ ∃ p, o.Mentions p ∧ r.move? p = some q := by
  constructor
  · exact mentions_reshape
  · rintro ⟨p, hp, hmove⟩
    exact hp.reshape hmove (hfits p q hp hmove)

/-- The entry of a cell goes where the cell goes. -/
theorem Canonical.getAt?_reshape (h : o.Canonical) (hmove : r.move? p = some q) (hp : p.Fits)
    (hq : q.Fits) : (o.reshape r).getAt? q = o.getAt? p := by
  -- Whatever has gone to the address of `q` was the entry of `p`.
  have hfrom : ∀ entry, (o.reshape r).getAt? q = some entry → o.getAt? p = some entry := by
    intro entry hentry
    obtain ⟨key, hget, hmoved⟩ := exists_of_get?_reshape hentry
    obtain ⟨-, p', hkey, hmove'⟩ := eq_of_moved? hmoved (Coord.ofAddress?_address hq)
    obtain rfl := Reshape.move?_inj hmove' hmove
    rw [getAt?, ← h key p' (by rw [hget]; rfl) hkey, hget]
  cases hget : (o.reshape r).getAt? q with
  | some entry => exact (hfrom entry hget).symm
  | none =>
    -- Had `p` an entry, it would have gone to `q`.
    have hmoved := moved?_of_move? (Coord.ofAddress?_address hp) hmove
    cases hold : o.getAt? p with
    | none => rfl
    | some entry =>
      have hsome := isSome_get?_reshape (r := r) (by rw [← getAt?, hold]; rfl) hmoved
      rw [← getAt?, hget] at hsome
      cases hsome

end Overlay

end TableGrid
