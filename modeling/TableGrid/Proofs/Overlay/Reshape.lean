import Mathlib.Data.List.Dedup
import Mathlib.Data.List.Nodup
import Mathlib.Data.List.Pairwise
import TableGrid.Proofs.Json.Canonical
import TableGrid.Proofs.Overlay.Canonical

/-!
# Entries of reshaped overlays

A change of shape puts each entry whose key names a cell under the address of the place where that
cell goes.  Of several entries for one cell only the last one is there afterwards.  So what an
overlay has after a change of shape follows from the last entry of each cell, `Overlay.latest?`, and
from the entries whose keys name no cell, and in these terms changes can be made one after another.

Addresses end with indices of 64 bits.  `Overlay.FitsAfter` says that no cell is moved beyond them.

## Key results

- `latest?_reshape`, `get?_reshape_of_error`: what is there after a change of shape
- `Canonical.ext`: an overlay with canonical keys is given by these entries
- `reshape_comm`: changes of rows and of columns may be made in either order
- `Canonical.reshape_reshape_eq_self_iff`: when a change of shape that takes all cells back undoes
  another one
- `keeps_reshape_iff`: when a change of shape loses no entry
-/

namespace TableGrid

namespace Overlay

variable {o o' : Overlay} {r c : Reshape} {p q : Coord} {key : String}

/-! ## The last entry of a cell -/

/-- The entry that an overlay writes last on a cell. -/
def latest? (o : Overlay) (p : Coord) : Option Entry :=
  ((o.toList.filter fun write => names p write.1).getLast?).map (·.2)

theorem exists_of_latest? {entry : Entry} (h : o.latest? p = some entry) :
    ∃ key, o.get? key = some entry ∧ Coord.ofAddress? key = .ok p := by
  obtain ⟨write, hlast, rfl⟩ := Option.map_eq_some_iff.1 h
  obtain ⟨hmem, hnames⟩ := List.mem_filter.1 (List.mem_of_getLast? hlast)
  exact ⟨write.1, mem_toList.1 hmem, of_decide_eq_true hnames⟩

theorem latest?_eq_none_iff : o.latest? p = none ↔ ¬o.Mentions p := by
  rw [latest?, Option.map_eq_none_iff, List.getLast?_eq_none_iff, List.filter_eq_nil_iff]
  constructor
  · rintro h ⟨key, entry, hget, haddr⟩
    exact h (key, entry) (mem_toList.2 hget) (decide_eq_true haddr)
  · rintro h ⟨key, entry⟩ hmem hnames
    exact h ⟨key, entry, mem_toList.1 hmem, of_decide_eq_true hnames⟩

/-- With canonical keys, a cell has the entry under its address only. -/
theorem Canonical.get?_of_ofAddress? (h : o.Canonical) (haddr : Coord.ofAddress? key = .ok p) :
    o.get? key = if key = p.address then o.latest? p else none := by
  split
  · rename_i hkey
    cases hlatest : o.latest? p with
    | none =>
      rw [Option.eq_none_iff_forall_ne_some]
      intro entry hget
      exact latest?_eq_none_iff.1 hlatest ⟨key, entry, hget, haddr⟩
    | some entry =>
      obtain ⟨key', hget, haddr'⟩ := exists_of_latest? hlatest
      rw [hkey, ← h key' p (by rw [hget]; rfl) haddr', hget]
  · rename_i hne
    rw [Option.eq_none_iff_forall_ne_some]
    intro entry hget
    exact hne (h key p (by rw [hget]; rfl) haddr)

/-- Overlays with canonical keys are equal if they have the same entries for cells and for keys that
    name none. -/
theorem Canonical.ext (h : o.Canonical) (h' : o'.Canonical)
    (hcells : ∀ p, o.latest? p = o'.latest? p)
    (hothers : ∀ key fault, Coord.ofAddress? key = .error fault → o.get? key = o'.get? key) :
    o = o' := by
  apply ext_get?
  intro key
  cases haddr : Coord.ofAddress? key with
  | error fault => exact hothers key fault haddr
  | ok p => rw [h.get?_of_ofAddress? haddr, h'.get?_of_ofAddress? haddr, hcells]

theorem toOption_ofAddress?_eq_some_iff :
    (Coord.ofAddress? key).toOption = some p ↔ Coord.ofAddress? key = .ok p := by
  cases Coord.ofAddress? key <;> simp [Except.toOption]

theorem canonical_iff :
    o.Canonical ↔
      ∀ write ∈ o.toList, ∀ p ∈ (Coord.ofAddress? write.1).toOption, write.1 = p.address := by
  constructor
  · rintro h ⟨key, entry⟩ hmem p hp
    exact h key p (by rw [mem_toList.1 hmem]; rfl) (toOption_ofAddress?_eq_some_iff.1 hp)
  · intro h key p hsome haddr
    obtain ⟨entry, hget⟩ := Option.isSome_iff_exists.1 hsome
    exact h (key, entry) (mem_toList.2 hget) p (toOption_ofAddress?_eq_some_iff.2 haddr)

instance (o : Overlay) : Decidable o.Canonical := decidable_of_iff _ canonical_iff.symm

/-! ## Changes of shape -/

/-- Whether a change of shape takes all cells that an overlay mentions to cells with addresses. -/
def FitsAfter (o : Overlay) (r : Reshape) : Prop :=
  ∀ p q, o.Mentions p → r.move? p = some q → q.Fits

theorem fitsAfter_iff :
    o.FitsAfter r ↔ ∀ write ∈ o.placements, ∀ q ∈ r.move? write.1, q.Fits := by
  constructor
  · rintro h ⟨p, patch⟩ hmem q hq
    exact h p q (mentions_iff.2 ⟨patch, hmem⟩) hq
  · intro h p q hp hmove
    obtain ⟨patch, hmem⟩ := mentions_iff.1 hp
    exact h (p, patch) hmem q hmove

instance (o : Overlay) (r : Reshape) : Decidable (o.FitsAfter r) :=
  have (p : Coord) : Decidable p.Fits := inferInstanceAs (Decidable (_ ∧ _))
  decidable_of_iff _ fitsAfter_iff.symm

/-- One more row and column of addresses is enough for all changes of shape. -/
theorem fitsAfter_of_lt
    (h : ∀ p, o.Mentions p → p.row + 1 < Text.maxWord ∧ p.col + 1 < Text.maxWord) (r : Reshape) :
    o.FitsAfter r := by
  intro p q hp hmove
  obtain ⟨hrow, hcol⟩ := h p hp
  obtain ⟨hrow', hcol'⟩ := Reshape.le_of_move? hmove
  exact ⟨by omega, by omega⟩

/-- The keys that move to the address of a cell are those that name the cell that goes there. -/
theorem moved?_eq_address_iff (hmove : r.move? p = some q) (hq : q.Fits) :
    moved? r key = some q.address ↔ Coord.ofAddress? key = .ok p := by
  constructor
  · intro hmoved
    obtain ⟨-, p', haddr, hmove'⟩ := eq_of_moved? hmoved (Coord.ofAddress?_address hq)
    rw [haddr, Reshape.move?_inj hmove' hmove]
  · intro haddr
    exact moved?_of_move? haddr hmove

/-- Where a cell goes, its last entry is the one that was its last before. -/
theorem latest?_reshape (h : o.FitsAfter r) (q : Coord) :
    (o.reshape r).latest? q = (r.origin? q).bind o.latest? := by
  cases horigin : r.origin? q with
  | none =>
    rw [Option.bind_none, latest?_eq_none_iff]
    intro hmentions
    obtain ⟨p, -, hmove⟩ := mentions_reshape hmentions
    rw [Reshape.origin?_eq_some_iff.2 hmove] at horigin
    cases horigin
  | some p =>
    have hmove := Reshape.origin?_eq_some_iff.1 horigin
    rw [Option.bind_some]
    by_cases hq : q.Fits
    · have hget := get?_reshape o r q.address
      rw [(canonical_reshape o r).get?_of_ofAddress? (Coord.ofAddress?_address hq),
        if_pos rfl] at hget
      simp only [moved?_eq_address_iff hmove hq] at hget
      exact hget
    · -- Neither cell has an address, or the second one would have kept it.
      rw [latest?_eq_none_iff.2 fun hmentions => hq hmentions.fits,
        latest?_eq_none_iff.2 fun hmentions => hq (h p q hmentions hmove)]

/-- The key of an entry moves to one that names the cell where its cell goes, or it names no cell
    and stays. -/
theorem moved?_cases {key' : String} (h : o.FitsAfter r) (hkey : (o.get? key).isSome)
    (hmoved : moved? r key = some key') :
    (∃ p q, Coord.ofAddress? key = .ok p ∧ r.move? p = some q ∧ Coord.ofAddress? key' = .ok q) ∨
      ∃ fault, Coord.ofAddress? key' = .error fault ∧ key = key' := by
  obtain ⟨entry, hget⟩ := Option.isSome_iff_exists.1 hkey
  cases haddr : Coord.ofAddress? key with
  | error fault =>
    rw [moved?, haddr, Option.some.injEq] at hmoved
    exact .inr ⟨fault, by rw [← hmoved, haddr], hmoved⟩
  | ok p =>
    rw [moved?, haddr] at hmoved
    obtain ⟨q, hmove, rfl⟩ := Option.map_eq_some_iff.1 hmoved
    exact .inl ⟨p, q, rfl, hmove, Coord.ofAddress?_address (h p q ⟨key, entry, hget, haddr⟩ hmove)⟩

/-- An entry whose key names no cell stays. -/
theorem get?_reshape_of_error {fault : AddressFault} (h : o.FitsAfter r)
    (hkey : Coord.ofAddress? key = .error fault) : (o.reshape r).get? key = o.get? key := by
  cases hget : (o.reshape r).get? key with
  | some entry =>
    obtain ⟨key', hget', hmoved⟩ := exists_of_get?_reshape hget
    rcases moved?_cases h (by rw [hget']; rfl) hmoved with ⟨p, q, -, -, haddr⟩ | ⟨-, -, rfl⟩
    · rw [haddr] at hkey
      cases hkey
    · exact hget'.symm
  | none =>
    have hmoved : moved? r key = some key := by
      rw [moved?, hkey]
    cases hold : o.get? key with
    | none => rfl
    | some entry =>
      have hsome := isSome_get?_reshape (r := r) (by rw [hold]; rfl) hmoved
      rw [hget] at hsome
      cases hsome

/-! ## One change after another -/

/-- Cells that have addresses after either change have them after both. -/
theorem FitsAfter.reshape (hr : o.FitsAfter r) (hc : o.FitsAfter c)
    (hne : r.changesRows ≠ c.changesRows) : (o.reshape r).FitsAfter c := by
  intro q q' hq hq'
  obtain ⟨p, hp, hmove⟩ := mentions_reshape hq
  obtain ⟨p', hp', hmove'⟩ := Reshape.exists_move?_of_move? hne hmove hq'
  have hqfits := hr p q hp hmove
  have hpfits := hc p p' hp hp'
  -- One of the changes has left the row as it was, the other one the column.
  cases hrows : r.changesRows with
  | true =>
    have hcols : c.changesRows = false :=
      Bool.eq_false_iff.2 fun hcols => hne (hrows.trans hcols.symm)
    refine ⟨?_, ?_⟩
    · rw [Reshape.row_of_move? hcols hq']
      exact hqfits.1
    · rw [Reshape.col_of_move? hrows hmove']
      exact hpfits.2
  | false =>
    have hcols : c.changesRows = true :=
      Bool.ne_false_iff.1 fun hcols => hne (hrows.trans hcols.symm)
    refine ⟨?_, ?_⟩
    · rw [Reshape.row_of_move? hrows hmove']
      exact hpfits.1
    · rw [Reshape.col_of_move? hcols hq']
      exact hqfits.2

/-- Whether no two keys name the same cell. -/
def NamesOnce (o : Overlay) : Prop :=
  ∀ key key' p, (o.get? key).isSome → (o.get? key').isSome → Coord.ofAddress? key = .ok p →
    Coord.ofAddress? key' = .ok p → key = key'

theorem Canonical.namesOnce (h : o.Canonical) : o.NamesOnce := by
  intro key key' p hkey hkey' haddr haddr'
  rw [h key p hkey haddr, h key' p hkey' haddr']

theorem nodup_toList (o : Overlay) : o.toList.Nodup := by
  have hsorted : o.toList.Pairwise fun a b => compare a.1 b.1 = .lt :=
    Std.ExtTreeMap.ordered_keys_toList
  refine hsorted.imp ?_
  rintro a _ hlt rfl
  rw [Std.ReflOrd.compare_self] at hlt
  cases hlt

/-- The images of all keys are different if no two keys have the same one. -/
theorem nodup_filterMap_iff {β : Type} (f : String → Option β) :
    (o.toList.filterMap fun write => f write.1).Nodup ↔
      ∀ key key' b, (o.get? key).isSome → (o.get? key').isSome → f key = some b →
        f key' = some b → key = key' := by
  rw [List.Nodup, List.pairwise_filterMap]
  constructor
  · intro h key key' b hkey hkey' hb hb'
    obtain ⟨entry, hget⟩ := Option.isSome_iff_exists.1 hkey
    obtain ⟨entry', hget'⟩ := Option.isSome_iff_exists.1 hkey'
    by_contra hne
    -- Which of the two entries is first in the list does not matter.
    have hsymm : Std.Symm fun write write' : String × Entry =>
        ∀ b, f write.1 = some b → ∀ b', f write'.1 = some b' → b ≠ b' :=
      ⟨fun write write' hall b' hb' b hb heq => hall b hb b' hb' heq.symm⟩
    exact h.forall (mem_toList.2 hget) (mem_toList.2 hget')
      (fun heq => hne (congrArg Prod.fst heq)) b hb b hb' rfl
  · intro h
    refine o.nodup_toList.imp_of_mem ?_
    rintro ⟨key, entry⟩ ⟨key', entry'⟩ hmem hmem' hne b hb b' hb' rfl
    rw [mem_toList] at hmem hmem'
    obtain rfl := h key key' b (by rw [hmem]; rfl) (by rw [hmem']; rfl) hb hb'
    rw [hmem, Option.some.injEq] at hmem'
    exact hne (by rw [hmem'])

theorem map_fst_placements (o : Overlay) :
    o.placements.map (·.1) = o.toList.filterMap fun e => (Coord.ofAddress? e.1).toOption := by
  rw [placements, List.map_filterMap]
  refine List.filterMap_congr ?_
  rintro ⟨key, entry⟩ -
  simp only
  cases Coord.ofAddress? key <;> rfl

theorem namesOnce_iff : o.NamesOnce ↔ (o.placements.map (·.1)).Nodup := by
  rw [map_fst_placements, nodup_filterMap_iff fun key => (Coord.ofAddress? key).toOption]
  simp only [toOption_ofAddress?_eq_some_iff]
  rfl

instance (o : Overlay) : Decidable o.NamesOnce :=
  decidable_of_iff (o.placements.map (·.1)).Nodup namesOnce_iff.symm

/-! ## Entries that are lost -/

/-- The keys after a change of shape, each as often as one is moved there. -/
def movedKeys (o : Overlay) (r : Reshape) : List String :=
  o.toList.filterMap fun write => moved? r write.1

/-- The number of entries whose keys name cells that a change of shape removes. -/
def removedCount (o : Overlay) (r : Reshape) : Nat :=
  o.toList.countP fun write => (moved? r write.1).isNone

/-- Whether a change of shape keeps the entries of an overlay: as many are left as are not for
    removed cells, those for cells have moved along with their cells, and all others are where
    they were. -/
structure Keeps (o : Overlay) (r : Reshape) : Prop where
  size : (o.reshape r).size + o.removedCount r = o.size
  moves : ∀ key entry p q, o.get? key = some entry → Coord.ofAddress? key = .ok p →
    r.move? p = some q →
      ∃ key', Coord.ofAddress? key' = .ok q ∧ (o.reshape r).get? key' = some entry
  stays : ∀ key entry fault, o.get? key = some entry → Coord.ofAddress? key = .error fault →
    (o.reshape r).get? key = some entry

/-- Whether no two keys name the same cell, cells that a change of shape removes aside. -/
def NamesKeptOnce (o : Overlay) (r : Reshape) : Prop :=
  ∀ key key' p q, (o.get? key).isSome → (o.get? key').isSome → Coord.ofAddress? key = .ok p →
    Coord.ofAddress? key' = .ok p → r.move? p = some q → key = key'

theorem mem_movedKeys_iff : key ∈ o.movedKeys r ↔ ((o.reshape r).get? key).isSome := by
  rw [movedKeys, List.mem_filterMap]
  constructor
  · rintro ⟨write, hmem, hmoved⟩
    exact isSome_get?_reshape (by rw [mem_toList.1 hmem]; rfl) hmoved
  · intro hsome
    obtain ⟨entry, hentry⟩ := Option.isSome_iff_exists.1 hsome
    obtain ⟨key', hget, hmoved⟩ := exists_of_get?_reshape hentry
    exact ⟨(key', entry), mem_toList.2 hget, hmoved⟩

theorem mem_map_fst_toList_iff : key ∈ o.toList.map (·.1) ↔ (o.get? key).isSome := by
  rw [List.mem_map, Option.isSome_iff_exists]
  constructor
  · rintro ⟨⟨_, entry⟩, hmem, rfl⟩
    exact ⟨entry, mem_toList.1 hmem⟩
  · rintro ⟨entry, hget⟩
    exact ⟨(key, entry), mem_toList.2 hget, rfl⟩

theorem size_eq_length_toList (o : Overlay) : o.size = o.toList.length :=
  Std.ExtTreeMap.length_toList.symm

/-- After a change of shape there is one entry for each key to which one is moved. -/
theorem size_reshape (o : Overlay) (r : Reshape) :
    (o.reshape r).size = (o.movedKeys r).dedup.length := by
  have hkeys : ((o.reshape r).toList.map (·.1)).Perm (o.movedKeys r).dedup := by
    refine (List.perm_ext_iff_of_nodup (Std.ExtTreeMap.nodup_map_fst_toList _)
      (List.nodup_dedup _)).2 fun key => ?_
    rw [List.mem_dedup, mem_movedKeys_iff, ← mem_map_fst_toList_iff]
    rfl
  rw [size_eq_length_toList, ← hkeys.length_eq, List.length_map]

theorem size_eq_add_removedCount (o : Overlay) (r : Reshape) :
    o.size = (o.movedKeys r).length + o.removedCount r := by
  rw [size_eq_length_toList, movedKeys, removedCount, List.length_filterMap_eq_countP,
    List.length_eq_countP_add_countP fun write => (moved? r write.1).isSome]
  simp only [Bool.decide_eq_true, Bool.not_eq_true, Option.isSome_eq_false_iff]

/-- The number of entries goes down by more than those of removed cells where keys meet. -/
theorem size_reshape_eq_iff :
    (o.reshape r).size + o.removedCount r = o.size ↔ (o.movedKeys r).Nodup := by
  rw [size_reshape, size_eq_add_removedCount o r, Nat.add_right_cancel_iff]
  constructor
  · intro hlength
    exact List.dedup_eq_self.1 ((List.dedup_sublist _).eq_of_length hlength)
  · intro hnodup
    rw [hnodup.dedup]

/-- Only keys that name one cell meet. -/
theorem nodup_movedKeys_iff (h : o.FitsAfter r) : (o.movedKeys r).Nodup ↔ o.NamesKeptOnce r := by
  rw [movedKeys, nodup_filterMap_iff]
  constructor
  · intro hall key key' p q hkey hkey' haddr haddr' hmove
    exact hall key key' q.address hkey hkey' (moved?_of_move? haddr hmove)
      (moved?_of_move? haddr' hmove)
  · intro honce key key' moved hkey hkey' hmoved hmoved'
    rcases moved?_cases h hkey hmoved with ⟨p, q, haddr, hmove, hq⟩ | ⟨fault, hfault, rfl⟩
    · rcases moved?_cases h hkey' hmoved' with ⟨p', q', haddr', hmove', hq'⟩ | ⟨fault, hfault, -⟩
      · rw [hq, Except.ok.injEq] at hq'
        subst hq'
        obtain rfl := Reshape.move?_inj hmove' hmove
        exact honce key key' p' q hkey hkey' haddr haddr' hmove
      · rw [hq] at hfault
        cases hfault
    · rcases moved?_cases h hkey' hmoved' with ⟨p', q', -, -, hq'⟩ | ⟨-, -, rfl⟩
      · rw [hfault] at hq'
        cases hq'
      · rfl

theorem removedCount_insertRow (o : Overlay) (i : Nat) : o.removedCount (.insertRow i) = 0 := by
  rw [removedCount, List.countP_eq_zero]
  rintro ⟨key, entry⟩ -
  cases haddr : Coord.ofAddress? key <;> simp [moved?, haddr, Reshape.move?]

theorem removedCount_insertColumn (o : Overlay) (i : Nat) :
    o.removedCount (.insertColumn i) = 0 := by
  rw [removedCount, List.countP_eq_zero]
  rintro ⟨key, entry⟩ -
  cases haddr : Coord.ofAddress? key <;> simp [moved?, haddr, Reshape.move?]

/-- Of cells that are named once, every entry moves along with its cell. -/
theorem NamesKeptOnce.keeps (honce : o.NamesKeptOnce r) (h : o.FitsAfter r) : o.Keeps r where
  size := size_reshape_eq_iff.2 ((nodup_movedKeys_iff h).2 honce)
  moves := by
    intro key entry p q hget haddr hmove
    have hkey : (o.get? key).isSome := by
      rw [hget]
      rfl
    -- The last entry of the cell is the one under its only key.
    have hlatest : o.latest? p = some entry := by
      cases hlast : o.latest? p with
      | none => exact absurd ⟨key, entry, hget, haddr⟩ (latest?_eq_none_iff.1 hlast)
      | some entry' =>
        obtain ⟨key', hget', haddr'⟩ := exists_of_latest? hlast
        obtain rfl := honce key key' p q hkey (by rw [hget']; rfl) haddr haddr' hmove
        rw [← hget', hget]
    have hmoved := latest?_reshape h q
    rw [Reshape.origin?_eq_some_iff.2 hmove, Option.bind_some, hlatest] at hmoved
    obtain ⟨key', hget', haddr'⟩ := exists_of_latest? hmoved
    exact ⟨key', haddr', hget'⟩
  stays := by
    intro key entry fault hget hfault
    rw [get?_reshape_of_error h hfault, hget]

/-- As long as all cells stay within the addresses, a change of shape keeps the entries of an
    overlay if and only if no cell that stays is named by two keys: of several entries for one
    cell only the last one is left.  All entries that are left are under the addresses of their
    cells, or where they were if they are for no cell.  An insertion removes no cell. -/
theorem keeps_reshape_iff (o : Overlay) (r : Reshape)
    (hbelow : ∀ p, o.Mentions p → p.row + 1 < Text.maxWord ∧ p.col + 1 < Text.maxWord) :
    (o.Keeps r ↔ o.NamesKeptOnce r) ∧
      (∀ q, (o.reshape r).latest? q = (r.origin? q).bind o.latest?) ∧
      (∀ key fault, Coord.ofAddress? key = .error fault → (o.reshape r).get? key = o.get? key) ∧
      (o.reshape r).Canonical ∧
      ∀ i, o.removedCount (.insertRow i) = 0 ∧ o.removedCount (.insertColumn i) = 0 := by
  have hfits := fitsAfter_of_lt hbelow r
  refine ⟨⟨fun hkeeps => ?_, fun honce => honce.keeps hfits⟩, latest?_reshape hfits,
    fun _ _ => get?_reshape_of_error hfits, canonical_reshape o r,
    fun i => ⟨removedCount_insertRow o i, removedCount_insertColumn o i⟩⟩
  exact (nodup_movedKeys_iff hfits).1 (size_reshape_eq_iff.1 hkeeps.size)

/-- Two keys of a cell that is removed do no harm. -/
theorem keeps_reshape_removed :
    let pair := (Overlay.empty.insert "A1" (.plain (.text "x"))).insert "A01" (.plain (.text "y"))
    let o := (pair.insert "B3" (.plain (.text "z"))).insert "note" (.plain (.text "n"))
    (∀ p, o.Mentions p → p.row + 1 < Text.maxWord ∧ p.col + 1 < Text.maxWord) ∧
      o.Keeps (.removeRow 0) ∧
      (o.reshape (.removeRow 0)).get? "B2" = some (.plain (.text "z")) := by
  intro pair o
  have hbelow : ∀ p, o.Mentions p → p.row + 1 < Text.maxWord ∧ p.col + 1 < Text.maxWord := by
    intro p hp
    obtain ⟨patch, hmem⟩ := mentions_iff.1 hp
    have hall : ∀ write ∈ o.placements,
        write.1.row + 1 < Text.maxWord ∧ write.1.col + 1 < Text.maxWord := by decide +kernel
    exact hall _ hmem
  have hnodup : (o.movedKeys (.removeRow 0)).Nodup := by decide +kernel
  have honce := (nodup_movedKeys_iff (fitsAfter_of_lt hbelow _)).1 hnodup
  exact ⟨hbelow, (keeps_reshape_iff o (.removeRow 0) hbelow).1.2 honce, by decide +kernel⟩

/-- Of two entries for one cell the first one is lost, although the cell stays where it is. -/
theorem not_keeps_reshape_alias :
    let red : Patch := { attributes := Attributes.empty.set .color "red" }
    let o := (Overlay.empty.insert "A01" (.styled red)).insert "A1" (.plain (.text "x"))
    (o.reshape (.insertRow 5)).toList = [("A1", .plain (.text "x"))] ∧
      ¬o.Keeps (.insertRow 5) := by
  intro red o
  refine ⟨by decide +kernel, fun hkeeps => ?_⟩
  have hsize : (o.reshape (.insertRow 5)).size + o.removedCount (.insertRow 5) ≠ o.size := by
    decide +kernel
  exact hsize hkeeps.size

end Overlay

end TableGrid
