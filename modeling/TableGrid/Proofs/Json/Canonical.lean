import TableGrid.Json.Members

/-!
# Stored values

Values are stored in canonical form: the names of objects are sorted and come once.  `Json.Fits`
bounds what is in a value, its depth and its numbers, as reading does.

## Key results

- `canonical_canonical`: the canonical form of a canonical form is itself
- `Fits.canonical`: the canonical form of a value that fits does so too
-/

namespace Std.ExtTreeMap

variable {α β : Type} [Ord α] [TransOrd α] [LawfulEqOrd α] [DecidableEq α] {l : List (α × β)}
  {k : α} {v : β}

/-- What is found in the map of a list is in the list. -/
theorem mem_of_getElem?_ofList (h : (ofList l compare)[k]? = some v) : (k, v) ∈ l := by
  rw [ofList_eq_insertMany_empty, getElem?_insertMany_list, getElem?_empty, Option.or_none,
    List.findSomeRev?_eq_findSome?_reverse] at h
  obtain ⟨⟨k', v'⟩, hmem, heq⟩ := List.exists_of_findSome?_eq_some h
  simp only [compare_eq_iff_eq, Option.ite_none_right_eq_some, Option.some.injEq] at heq
  obtain ⟨rfl, rfl⟩ := heq
  exact List.mem_reverse.1 hmem

omit [DecidableEq α] in
/-- What a list without repeated keys has under a key is found in its map. -/
theorem getElem?_ofList_of_nodup (hl : (l.map Prod.fst).Nodup) (hmem : (k, v) ∈ l) :
    (ofList l compare)[k]? = some v := by
  refine getElem?_ofList_of_mem ReflOrd.compare_self ?_ hmem
  refine (List.pairwise_map.1 hl).imp fun hne heq => ?_
  exact hne (LawfulEqOrd.eq_of_compare heq)

omit [DecidableEq α] in
theorem nodup_map_fst_toList (m : ExtTreeMap α β) : (m.toList.map Prod.fst).Nodup := by
  refine List.pairwise_map.2 (m.distinct_keys_toList.imp fun hne heq => hne ?_)
  rw [heq]
  exact ReflOrd.compare_self

/-- Of two lists the second one goes first. -/
theorem getElem?_ofList_append (l l' : List (α × β)) (k : α) :
    (ofList (l ++ l') compare)[k]? = (ofList l' compare)[k]?.or (ofList l compare)[k]? := by
  simp only [ofList_eq_insertMany_empty, getElem?_insertMany_list, getElem?_empty, Option.or_none,
    List.findSomeRev?_eq_findSome?_reverse, List.reverse_append, List.findSome?_append]

theorem ofList_toList (m : ExtTreeMap α β) : ofList m.toList compare = m := by
  apply ext_getElem?
  intro k
  cases hget : m[k]? with
  | some v =>
    exact getElem?_ofList_of_nodup m.nodup_map_fst_toList (mem_toList_iff_getElem?_eq_some.2 hget)
  | none =>
    refine Option.eq_none_iff_forall_ne_some.2 fun v hv => ?_
    have hmem := mem_toList_iff_getElem?_eq_some.1 (mem_of_getElem?_ofList hv)
    rw [hget] at hmem
    cases hmem

end Std.ExtTreeMap

namespace TableGrid.Json

variable {members : List (String × Json)} {m : String × Json} {d d' : Nat} {j : Json}

/-! ## Canonical forms -/

theorem canonicalItems_eq_map (items : List Json) : canonicalItems items = items.map canonical := by
  induction items with
  | nil => rfl
  | cons j items ih => rw [canonicalItems, ih, List.map_cons]

theorem canonicalMembers_eq_map (members : List (String × Json)) :
    canonicalMembers members = members.map fun m => (m.1, m.2.canonical) := by
  induction members with
  | nil => rfl
  | cons m members ih => rw [canonicalMembers, ih, List.map_cons]

theorem mem_of_mem_sortMembers (h : m ∈ sortMembers members) : m ∈ members :=
  Std.ExtTreeMap.mem_of_getElem?_ofList (Std.ExtTreeMap.mem_toList_iff_getElem?_eq_some.1 h)

theorem nodup_sortMembers (members : List (String × Json)) :
    ((sortMembers members).map Prod.fst).Nodup :=
  Std.ExtTreeMap.nodup_map_fst_toList _

@[simp] theorem sortMembers_sortMembers (members : List (String × Json)) :
    sortMembers (sortMembers members) = sortMembers members := by
  rw [sortMembers, sortMembers, Std.ExtTreeMap.ofList_toList]

/-- Members whose values are canonical stay as they are. -/
theorem canonicalMembers_of_forall (h : ∀ m ∈ members, m.2.canonical = m.2) :
    canonicalMembers members = members := by
  rw [canonicalMembers_eq_map]
  refine (List.map_congr_left fun m hm => ?_).trans (List.map_id members)
  rw [h m hm, id_eq]

mutual

/-- The canonical form of a canonical form is itself. -/
@[simp] theorem canonical_canonical (j : Json) : j.canonical.canonical = j.canonical := by
  match j with
  | .null | .bool _ | .number _ | .string _ => rfl
  | .array items =>
    rw [canonical, canonical, canonicalItems_canonicalItems items]
  | .object members =>
    -- Sorting drops and moves members, but leaves their values as they are.
    rw [canonical, canonical, canonicalMembers_of_forall, sortMembers_sortMembers]
    intro m hm
    exact canonical_canonicalMembers members m (mem_of_mem_sortMembers hm)

theorem canonicalItems_canonicalItems (items : List Json) :
    canonicalItems (canonicalItems items) = canonicalItems items := by
  match items with
  | [] => rfl
  | j :: items =>
    rw [canonicalItems, canonicalItems, canonical_canonical j, canonicalItems_canonicalItems items]

theorem canonical_canonicalMembers (members : List (String × Json)) :
    ∀ m ∈ canonicalMembers members, m.2.canonical = m.2 := by
  match members with
  | [] => exact fun m hm => nomatch hm
  | (name, j) :: members =>
    rw [canonicalMembers, List.forall_mem_cons]
    exact ⟨canonical_canonical j, canonical_canonicalMembers members⟩

end

/-! ## What is in a value -/

/-- Whether a number is one that reading gives: a whole one of 64 bits, signed or not, or a finite
    binary one. -/
def Number.Fits : Number → Prop
  | .whole n => -Nat.pow 2 63 ≤ n ∧ n ≤ Text.maxWord
  | .binary x => x.isFinite = true

/-- Whether arrays and objects are nested at most `d` deep, and all numbers fit. -/
inductive Fits : Nat → Json → Prop where
  | null {d : Nat} : Fits d .null
  | bool {d : Nat} (b : Bool) : Fits d (.bool b)
  | number {d : Nat} {n : Number} (h : n.Fits) : Fits d (.number n)
  | string {d : Nat} (s : String) : Fits d (.string s)
  | array {d : Nat} {items : List Json} (h : ∀ j ∈ items, Fits d j) : Fits (d + 1) (.array items)
  | object {d : Nat} {members : List (String × Json)} (h : ∀ m ∈ members, Fits d m.2) :
    Fits (d + 1) (.object members)

theorem Fits.of_mem_array {items : List Json} (h : (Json.array items).Fits (d + 1))
    (hj : j ∈ items) : j.Fits d := by
  cases h with
  | array h => exact h j hj

theorem Fits.of_mem_object (h : (Json.object members).Fits (d + 1)) (hm : m ∈ members) :
    m.2.Fits d := by
  cases h with
  | object h => exact h m hm

theorem Fits.canonical (h : Fits d j) : Fits d j.canonical := by
  induction h with
  | null => exact .null
  | bool b => exact .bool b
  | number h => exact .number h
  | string s => exact .string s
  | array _ ih =>
    rw [Json.canonical, canonicalItems_eq_map]
    refine .array fun j hj => ?_
    obtain ⟨j, hmem, rfl⟩ := List.mem_map.1 hj
    exact ih j hmem
  | object _ ih =>
    rw [Json.canonical, canonicalMembers_eq_map]
    refine .object fun m hm => ?_
    obtain ⟨m, hmem, rfl⟩ := List.mem_map.1 (mem_of_mem_sortMembers hm)
    exact ih m hmem

end TableGrid.Json
