import TableGrid.Proofs.Json.Members
import TableGrid.Style.Attributes

/-!
# Attribute sets as JSON

An attribute set that is read from an object has under each name what was last written there, and
the set that is written as an object reads as itself.

## Key results

- `values_ofMembers`, `extra_ofMembers`: what a set has under a name
- `nodup_names_iff`: when a name is written twice
- `Kept.ofMembers_toMembers`: what a set that is written reads as
- `storable_ofMembers`: sets that are read can be written
- `Storable.ofMembers_toMembers`: sets that were read are written and read as themselves
-/

namespace TableGrid

theorem Property.name_inj {p q : Property} (h : p.name = q.name) : p = q := by
  have heq := congrArg Property.ofName? h
  rw [ofName?_name, ofName?_name] at heq
  exact Option.some.inj heq

theorem Property.name_of_ofName? {p : Property} {name : String} (h : ofName? name = some p) :
    p.name = name := by
  have hfound := List.find?_some h
  exact eq_of_beq hfound

namespace Attributes

variable {a : Attributes} {key : Property} {name other : String} {value : Json} {d : Nat}
  {members : List (String × Json)} {fields : List String}

/-! ## Reading -/

/-- The value that is kept of a member that is no property. -/
def otherValue? (name : String) (value : Json) : Option Json :=
  if value.isNull || (Property.ofName? name).isSome && (textOfJson? value).isSome then none
  else some value

theorem values_addMember :
    (a.addMember name value).values[key]? =
      if name = key.name then (textOfJson? value).or a.values[key]? else a.values[key]? := by
  unfold addMember
  split
  · rename_i hnull
    have htext : textOfJson? value = none := by
      cases value with
      | null => rfl
      | _ => cases hnull
    simp [htext]
  · split
    · rename_i key' text hname htext
      obtain rfl := Property.name_of_ofName? hname
      simp only [set, Std.ExtTreeMap.getElem?_insert, Std.compare_eq_iff_eq, htext, Option.some_or]
      by_cases heq : key' = key
      · rw [if_pos heq, if_pos (by rw [heq])]
      · rw [if_neg heq, if_neg fun h => heq (Property.name_inj h)]
    · rename_i hnone
      split
      · rename_i heq
        subst heq
        cases htext : textOfJson? value with
        | none => rfl
        | some text => exact absurd htext (hnone key text (Property.ofName?_name key))
      · rfl

theorem extra_addMember :
    (a.addMember name value).extra[other]? =
      if name = other then (otherValue? name value).or a.extra[other]? else a.extra[other]? := by
  unfold addMember otherValue?
  split
  · rename_i hnull
    simp [hnull]
  · rename_i hnull
    rw [Bool.not_eq_true] at hnull
    split
    · rename_i key text hname htext
      simp [hname, htext, set]
    · rename_i hnone
      have hkept : ((Property.ofName? name).isSome && (textOfJson? value).isSome) = false := by
        rw [Bool.eq_false_iff]
        intro hboth
        rw [Bool.and_eq_true, Option.isSome_iff_exists, Option.isSome_iff_exists] at hboth
        obtain ⟨⟨key, hkey⟩, text, htext⟩ := hboth
        exact hnone key text hkey htext
      simp only [Std.ExtTreeMap.getElem?_insert, Std.compare_eq_iff_eq, hnull, hkept]
      rfl

/-- Members under different names are taken up independently. -/
theorem values_foldl_addMember (h : (members.map Prod.fst).Nodup) (a : Attributes) :
    (members.foldl (fun a m => a.addMember m.1 m.2) a).values[key]? =
      ((members.lookup key.name).bind textOfJson?).or a.values[key]? := by
  induction members generalizing a with
  | nil => rfl
  | cons m members ih =>
    obtain ⟨name, value⟩ := m
    rw [List.map_cons, List.nodup_cons] at h
    rw [List.foldl_cons, ih h.2, values_addMember, List.lookup_cons]
    by_cases heq : key.name = name
    · subst heq
      -- No later member has this name.
      have hnone : members.lookup key.name = none := by
        refine Option.eq_none_iff_forall_ne_some.2 fun v hv => ?_
        exact h.1 (List.mem_map.2 ⟨_, (List.lookup_eq_some_iff_mem h.2).1 hv, rfl⟩)
      simp [hnone]
    · rw [if_neg (Ne.symm heq), beq_eq_false_iff_ne.2 heq]

theorem extra_foldl_addMember (h : (members.map Prod.fst).Nodup) (a : Attributes) :
    (members.foldl (fun a m => a.addMember m.1 m.2) a).extra[name]? =
      ((members.lookup name).bind (otherValue? name)).or a.extra[name]? := by
  induction members generalizing a with
  | nil => rfl
  | cons m members ih =>
    obtain ⟨name', value⟩ := m
    rw [List.map_cons, List.nodup_cons] at h
    rw [List.foldl_cons, ih h.2, extra_addMember, List.lookup_cons]
    by_cases heq : name = name'
    · subst heq
      have hnone : members.lookup name = none := by
        refine Option.eq_none_iff_forall_ne_some.2 fun v hv => ?_
        exact h.1 (List.mem_map.2 ⟨_, (List.lookup_eq_some_iff_mem h.2).1 hv, rfl⟩)
      simp [hnone]
    · rw [if_neg (Ne.symm heq), beq_eq_false_iff_ne.2 heq]

/-- What was last written under a name, in canonical form. -/
def last? (members : List (String × Json)) (name : String) : Option Json :=
  (Std.ExtTreeMap.ofList (Json.canonicalMembers members) : Std.ExtTreeMap String Json)[name]?

theorem lookup_sortMembers :
    (Json.sortMembers (Json.canonicalMembers members)).lookup name = last? members name := by
  apply Option.ext
  intro v
  rw [List.lookup_eq_some_iff_mem (Json.nodup_sortMembers _), last?]
  exact Std.ExtTreeMap.mem_toList_iff_getElem?_eq_some

theorem values_ofMembers :
    (ofMembers members).values[key]? = (last? members key.name).bind textOfJson? := by
  rw [ofMembers, values_foldl_addMember (Json.nodup_sortMembers _), lookup_sortMembers]
  exact Option.or_none

theorem extra_ofMembers :
    (ofMembers members).extra[name]? = (last? members name).bind (otherValue? name) := by
  rw [ofMembers, extra_foldl_addMember (Json.nodup_sortMembers _), lookup_sortMembers]
  exact Option.or_none

theorem mem_of_last? (h : last? members name = some value) :
    ∃ j, (name, j) ∈ members ∧ j.canonical = value := by
  have hmem := Std.ExtTreeMap.mem_of_getElem?_ofList h
  rw [Json.canonicalMembers_eq_map] at hmem
  obtain ⟨⟨name', j⟩, hj, heq⟩ := List.mem_map.1 hmem
  obtain ⟨rfl, hvalue⟩ := Prod.mk.inj heq
  exact ⟨j, hj, hvalue⟩

theorem otherValue?_eq_some {kept : Json} (h : otherValue? name value = some kept) :
    kept = value ∧ value.isNull = false ∧
      ((Property.ofName? name).isSome → textOfJson? value = none) := by
  unfold otherValue? at h
  split at h
  · cases h
  · rename_i hcond
    rw [Bool.not_eq_true, Bool.or_eq_false_iff, Bool.and_eq_false_imp] at hcond
    refine ⟨(Option.some.inj h).symm, hcond.1, fun hname => ?_⟩
    rw [← Option.not_isSome_iff_eq_none, hcond.2 hname]
    exact Bool.false_ne_true

/-! ## Writing -/

/-- Whether what a set keeps beside its properties is as it is kept when it is read. -/
def Kept (d : Nat) (a : Attributes) : Prop :=
  ∀ name value, a.extra[name]? = some value →
    otherValue? name value = some value ∧ value.canonical = value ∧ value.Fits d

/-- Whether a set keeps nothing under the name of a property that it has. -/
def Apart (a : Attributes) : Prop :=
  ∀ key : Property, (a.extra[key.name]?).isSome → a.values[key]? = none

/-- The set without the properties under whose names it keeps something else. -/
def unshadowed (a : Attributes) : Attributes :=
  { a with values := a.values.filter fun key _ => !(a.extra[key.name]?).isSome }

theorem values_unshadowed :
    a.unshadowed.values[key]? = if (a.extra[key.name]?).isSome then none else a.values[key]? := by
  simp only [unshadowed, Std.ExtTreeMap.getElem?_filter']
  cases a.values[key]? with
  | none => simp
  | some text => by_cases h : (a.extra[key.name]?).isSome <;> simp [Option.filter, h]

theorem unshadowed_eq_self_iff : a.unshadowed = a ↔ a.Apart := by
  have hset : a.unshadowed = a ↔ a.unshadowed.values = a.values :=
    ⟨fun h => congrArg values h, fun h => congrArg (fun values => { a with values }) h⟩
  rw [hset, Std.ExtTreeMap.ext_getElem?_iff]
  refine forall_congr' fun key => ?_
  rw [values_unshadowed]
  split
  · rename_i hsome
    exact ⟨fun h _ => h.symm, fun h => (h hsome).symm⟩
  · rename_i hnone
    exact ⟨fun _ h => absurd h hnone, fun _ => rfl⟩

/-- The properties of a set as members. -/
def properties (a : Attributes) : List (String × Json) :=
  a.values.toList.map fun (key, text) => (key.name, .string text)

theorem mem_properties :
    (name, value) ∈ a.properties ↔ ∃ (key : Property) (text : String),
      a.values[key]? = some text ∧ key.name = name ∧ .string text = value := by
  simp only [properties, List.mem_map, Prod.exists, Prod.mk.injEq,
    Std.ExtTreeMap.mem_toList_iff_getElem?_eq_some]

theorem mem_toMembers :
    (name, value) ∈ a.toMembers ↔
      (∃ (key : Property) (text : String),
          a.values[key]? = some text ∧ key.name = name ∧ .string text = value) ∨
        a.extra[name]? = some value := by
  rw [toMembers, List.mem_append, ← mem_properties, Std.ExtTreeMap.mem_toList_iff_getElem?_eq_some]
  rfl

theorem nodup_properties (a : Attributes) : (a.properties.map Prod.fst).Nodup := by
  rw [properties, List.map_map]
  have hkeys := List.pairwise_map.1 a.values.nodup_map_fst_toList
  exact List.pairwise_map.2 (hkeys.imp fun hne heq => hne (Property.name_inj heq))

/-- No name is written twice if and only if the set keeps nothing under the name of a property that
    it has. -/
theorem nodup_names_iff : (Json.names a.toMembers).Nodup ↔ a.Apart := by
  have hnames : Json.names a.toMembers = a.properties.map Prod.fst ++ a.extra.toList.map Prod.fst :=
    List.map_append
  -- Neither part has a name twice, so what counts is whether they share one.
  rw [hnames, List.nodup_append]
  constructor
  · rintro ⟨-, -, hshared⟩ key hextra
    refine Option.eq_none_iff_forall_ne_some.2 fun text htext => ?_
    obtain ⟨value, hvalue⟩ := Option.isSome_iff_exists.1 hextra
    refine hshared key.name (List.mem_map.2 ⟨_, mem_properties.2 ⟨key, text, htext, rfl, rfl⟩, rfl⟩)
      key.name (List.mem_map.2 ⟨(key.name, value), ?_, rfl⟩) rfl
    exact Std.ExtTreeMap.mem_toList_iff_getElem?_eq_some.2 hvalue
  · refine fun hapart => ⟨a.nodup_properties, a.extra.nodup_map_fst_toList, ?_⟩
    rintro name hproperty _ hextra rfl
    obtain ⟨⟨name, value⟩, hmem, rfl⟩ := List.mem_map.1 hproperty
    obtain ⟨key, text, htext, rfl, -⟩ := mem_properties.1 hmem
    obtain ⟨⟨name, value⟩, hvalue, hname⟩ := List.mem_map.1 hextra
    rw [Std.ExtTreeMap.mem_toList_iff_getElem?_eq_some] at hvalue
    simp only at hname
    rw [hname] at hvalue
    rw [hapart key (by rw [hvalue]; rfl)] at htext
    cases htext

theorem Kept.fits (h : a.Kept d) : ∀ m ∈ a.toMembers, m.2.Fits d := by
  rintro ⟨name, value⟩ hmem
  rcases mem_toMembers.1 hmem with ⟨key, text, -, -, rfl⟩ | hkept
  · exact .string text
  · exact (h name value hkept).2.2

theorem Kept.fits_toJson (h : a.Kept d) : a.toJson.Fits (d + 1) := .object h.fits

theorem Kept.canonicalMembers_toMembers (h : a.Kept d) :
    Json.canonicalMembers a.toMembers = a.toMembers := by
  refine Json.canonicalMembers_of_forall ?_
  rintro ⟨name, value⟩ hmem
  rcases mem_toMembers.1 hmem with ⟨key, text, -, -, rfl⟩ | hkept
  · rfl
  · exact (h name value hkept).2.1

/-- What is kept beside the properties is written last, so it is what is read under its name. -/
theorem Kept.last?_toMembers (h : a.Kept d) (name : String) :
    last? a.toMembers name = (a.extra[name]?).or
      ((Property.ofName? name).bind fun key => a.values[key]?.map Json.string) := by
  have hproperties : (Std.ExtTreeMap.ofList a.properties : Std.ExtTreeMap String Json)[name]? =
      (Property.ofName? name).bind fun key => a.values[key]?.map Json.string := by
    apply Option.ext
    intro value
    constructor
    · intro hvalue
      obtain ⟨key, text, htext, rfl, rfl⟩ :=
        mem_properties.1 (Std.ExtTreeMap.mem_of_getElem?_ofList hvalue)
      simp only [Property.ofName?_name, Option.bind_some, htext, Option.map_some]
    · intro hvalue
      obtain ⟨key, hkey, hmap⟩ := Option.bind_eq_some_iff.1 hvalue
      obtain ⟨text, htext, rfl⟩ := Option.map_eq_some_iff.1 hmap
      exact Std.ExtTreeMap.getElem?_ofList_of_nodup a.nodup_properties
        (mem_properties.2 ⟨key, text, htext, Property.name_of_ofName? hkey, rfl⟩)
  rw [last?, h.canonicalMembers_toMembers, ← hproperties]
  show (Std.ExtTreeMap.ofList (a.properties ++ a.extra.toList))[name]? = _
  rw [Std.ExtTreeMap.getElem?_ofList_append, Std.ExtTreeMap.ofList_toList]

/-- A set that is written reads as itself, without the properties under whose names something else
    is kept. -/
theorem Kept.ofMembers_toMembers (h : a.Kept d) : ofMembers a.toMembers = a.unshadowed := by
  have hvalues : (ofMembers a.toMembers).values = a.unshadowed.values := by
    apply Std.ExtTreeMap.ext_getElem?
    intro key
    rw [values_ofMembers, h.last?_toMembers, values_unshadowed, Property.ofName?_name]
    cases hkept : a.extra[key.name]? with
    | some value =>
      -- What is kept under the name of a property has no text.
      refine (otherValue?_eq_some (h key.name value hkept).1).2.2 ?_
      rw [Property.ofName?_name]
      rfl
    | none =>
      rw [Option.none_or, Option.bind_some]
      cases a.values[key]? <;> rfl
  have hextra : (ofMembers a.toMembers).extra = a.unshadowed.extra := by
    apply Std.ExtTreeMap.ext_getElem?
    intro name
    show _ = a.extra[name]?
    rw [extra_ofMembers, h.last?_toMembers]
    cases hkept : a.extra[name]? with
    | some value => exact (h name value hkept).1
    | none =>
      -- The text of a property is no value that is kept.
      refine Option.bind_eq_none_iff.2 fun value hvalue => ?_
      obtain ⟨key, hkey, hmap⟩ := Option.bind_eq_some_iff.1 hvalue
      obtain ⟨text, -, rfl⟩ := Option.map_eq_some_iff.1 hmap
      simp [otherValue?, hkey, textOfJson?]
  calc ofMembers a.toMembers
      = ⟨(ofMembers a.toMembers).values, (ofMembers a.toMembers).extra⟩ := rfl
    _ = a.unshadowed := by rw [hvalues, hextra]

/-! ### Sets that were read -/

/-- Whether a set can be written as members beside the given fields and read again: what it keeps
    is as it is kept when it is read, it has nothing twice, and nothing under the names of the
    fields. -/
structure Storable (fields : List String) (d : Nat) (a : Attributes) : Prop where
  kept : ∀ name value, a.extra[name]? = some value →
    otherValue? name value = some value ∧ value.canonical = value ∧ value.Fits d
  apart : ∀ key : Property, (a.extra[key.name]?).isSome → a.values[key]? = none
  fields : ∀ name ∈ fields, a.extra[name]? = none

/-- A set that was read can be written. -/
theorem storable_ofMembers (hfits : ∀ m ∈ members, m.2.Fits d)
    (hfields : ∀ name ∈ fields, name ∉ Json.names members) :
    (ofMembers members).Storable fields d where
  kept name value h := by
    rw [extra_ofMembers, Option.bind_eq_some_iff] at h
    obtain ⟨j, hj, hkept⟩ := h
    obtain ⟨j', hmem, rfl⟩ := mem_of_last? hj
    obtain rfl := (otherValue?_eq_some hkept).1
    exact ⟨hkept, Json.canonical_canonical j', (hfits _ hmem).canonical⟩
  apart key h := by
    rw [extra_ofMembers] at h
    obtain ⟨kept, hkept⟩ := Option.isSome_iff_exists.1 h
    obtain ⟨j, hj, hother⟩ := Option.bind_eq_some_iff.1 hkept
    rw [values_ofMembers, hj, Option.bind_some]
    exact (otherValue?_eq_some hother).2.2 (by rw [Property.ofName?_name]; rfl)
  fields name hname := by
    rw [extra_ofMembers, Option.bind_eq_none_iff]
    intro j hj
    obtain ⟨j', hmem, -⟩ := mem_of_last? hj
    exact absurd (List.mem_map.2 ⟨_, hmem, rfl⟩) (hfields name hname)

theorem storable_ofMembers_without (hfits : ∀ m ∈ members, m.2.Fits d) :
    (ofMembers (Json.without members fields)).Storable fields d := by
  refine storable_ofMembers (fun m hm => hfits m (List.mem_filter.1 hm).1) ?_
  intro name hname hmem
  obtain ⟨m, hm, rfl⟩ := List.mem_map.1 hmem
  have hout := (List.mem_filter.1 hm).2
  simp [hname] at hout

theorem storable_of_ofJson? {j : Json} (hfits : j.Fits (d + 1)) (h : ofJson? j = some a) :
    a.Storable [] d := by
  cases j with
  | object members =>
    obtain rfl := Option.some.inj h
    exact storable_ofMembers (fun m => hfits.of_mem_object) (List.forall_mem_nil _)
  | _ => cases h

theorem storable_empty : empty.Storable fields d where
  kept name value h := by cases h
  apart key h := by cases h
  fields _ _ := rfl

theorem Storable.isKept (h : a.Storable fields d) : a.Kept d := h.kept

theorem Storable.fits (h : a.Storable fields d) : ∀ m ∈ a.toMembers, m.2.Fits d := h.isKept.fits

theorem Storable.fits_toJson (h : a.Storable fields d) : a.toJson.Fits (d + 1) :=
  h.isKept.fits_toJson

theorem Storable.not_mem_names (h : a.Storable fields d)
    (hfields : ∀ key : Property, key.name ∉ fields) :
    ∀ name ∈ Json.names a.toMembers, name ∉ fields := by
  intro name hname hfield
  obtain ⟨⟨name, value⟩, hmem, rfl⟩ := List.mem_map.1 hname
  rcases mem_toMembers.1 hmem with ⟨key, text, -, rfl, -⟩ | hkept
  · exact hfields key hfield
  · rw [h.fields name hfield] at hkept
    cases hkept

/-- A set that is written reads as itself. -/
theorem Storable.ofMembers_toMembers (h : a.Storable fields d) : ofMembers a.toMembers = a := by
  rw [h.isKept.ofMembers_toMembers, unshadowed_eq_self_iff.2 h.apart]

/-! ### Beside fields -/

/-- A field is found in front of a set. -/
theorem Storable.filter_append_toMembers {part : List (String × Json)} (h : a.Storable fields d)
    (hfields : ∀ key : Property, key.name ∉ fields) (hname : name ∈ fields)
    (hpart : members.filter (·.1 == name) = part) :
    (members ++ a.toMembers).filter (·.1 == name) = part := by
  have hnone : a.toMembers.filter (·.1 == name) = [] :=
    Json.filter_eq_nil_of_not_mem_names fun hmem => h.not_mem_names hfields name hmem hname
  rw [List.filter_append, hpart, hnone, List.append_nil]

/-- Behind fields a set reads as itself. -/
theorem Storable.ofMembers_append_toMembers (h : a.Storable fields d)
    (hfields : ∀ key : Property, key.name ∉ fields) (members : List (String × Json))
    (hnames : ∀ name ∈ Json.names members, name ∈ fields) :
    ofMembers (Json.without (members ++ a.toMembers) fields) = a := by
  rw [Json.without_append hnames (h.not_mem_names hfields), h.ofMembers_toMembers]

end Attributes

end TableGrid
