import TableGrid.Proofs.Json.Canonical
import TableGrid.Proofs.List

/-!
# Members of objects

How the fields of an object are found among its members: what was read of a field was one of the
members, and of members written one after the other each field is found where it was written.

## Key results

- `optional_eq_some`, `withDefault_eq_some`, `listOf?_eq_some`: where a decoded field comes from
- `filter_optionalMember`, `filter_listMember`: what is written under a name
- `optional_of_filter_bind`, `optional_of_filter`, `withDefault_of_filter`,
  `withDefault_listOf?`: what was written decodes again
-/

namespace TableGrid.Json

variable {α : Type} {members rest : List (String × Json)} {name other : String} {j : Json}
  {decode : Json → Option α} {encode : α → Json}

/-! ## Reading -/

theorem mem_of_field? (h : field? members name = some (some j)) : (name, j) ∈ members := by
  unfold field? at h
  split at h
  · cases h
  · rename_i m value heq
    obtain rfl := Option.some.inj (Option.some.inj h)
    have hmem : (m, value) ∈ members.filter (·.1 == name) := by
      rw [heq]
      exact List.mem_singleton_self _
    obtain ⟨hmem, hname⟩ := List.mem_filter.1 hmem
    rw [beq_iff_eq] at hname
    rwa [← hname]
  · cases h

/-- A decoded field that may be absent was written, and not as `null`. -/
theorem optional_eq_some {x : α} (h : optional members name decode = some (some x)) :
    ∃ j, (name, j) ∈ members ∧ j ≠ .null ∧ decode j = some x := by
  unfold optional at h
  cases hfield : field? members name with
  | none =>
    rw [hfield] at h
    cases h
  | some value =>
    rw [hfield] at h
    simp only [Option.bind_eq_bind, Option.bind_some] at h
    split at h
    · cases h
    · cases h
    · rename_i j hnull
      obtain ⟨y, hy, heq⟩ := Option.bind_eq_some_iff.1 h
      obtain rfl := Option.some.inj (Option.some.inj heq)
      exact ⟨j, mem_of_field? hfield, hnull, hy⟩

/-- A decoded field with a value of its own was written, or it has this value. -/
theorem withDefault_eq_some {default x : α} (h : withDefault members name default decode = some x) :
    x = default ∨ ∃ j, (name, j) ∈ members ∧ decode j = some x := by
  unfold withDefault at h
  cases hfield : field? members name with
  | none =>
    rw [hfield] at h
    cases h
  | some value =>
    rw [hfield] at h
    simp only [Option.bind_eq_bind, Option.bind_some] at h
    split at h
    · exact .inl (Option.some.inj h).symm
    · exact .inr ⟨_, mem_of_field? hfield, h⟩

/-- Decoded items come from the items of an array. -/
theorem listOf?_eq_some {xs : List α} (h : listOf? decode j = some xs) :
    ∃ items, j = .array items ∧ ∀ x ∈ xs, ∃ item ∈ items, decode item = some x := by
  cases j with
  | array items => exact ⟨items, rfl, List.exists_mem_of_mapM_eq_some h⟩
  | _ => cases h

/-- What holds of everything that is decoded holds of the items of a list field. -/
theorem forall_of_withDefault_listOf? {d : Nat} {P : α → Prop} {xs : List α}
    (hfits : (Json.object members).Fits (d + 2))
    (h : withDefault members name [] (listOf? decode) = some xs)
    (hitem : ∀ j x, j.Fits d → decode j = some x → P x) : ∀ x ∈ xs, P x := by
  rcases withDefault_eq_some h with rfl | ⟨j, hj, hdecode⟩
  · exact List.forall_mem_nil _
  · obtain ⟨items, rfl, hxs⟩ := listOf?_eq_some hdecode
    intro x hx
    obtain ⟨item, hitem', hdecode⟩ := hxs x hx
    exact hitem item x ((hfits.of_mem_object hj).of_mem_array hitem') hdecode

/-- What holds of everything that is decoded holds of a field that may be absent. -/
theorem forall_of_optional {d : Nat} {P : α → Prop} {value : Option α}
    (hfits : (Json.object members).Fits (d + 1)) (h : optional members name decode = some value)
    (hitem : ∀ j x, j.Fits d → decode j = some x → P x) : ∀ x ∈ value, P x := by
  rintro x rfl
  obtain ⟨j, hj, -, hdecode⟩ := optional_eq_some h
  exact hitem j x (hfits.of_mem_object hj) hdecode

/-! ## Writing -/

/-- The names of members. -/
def names (members : List (String × Json)) : List String := members.map (·.1)

theorem mem_names_append :
    name ∈ names (members ++ rest) ↔ name ∈ names members ∨ name ∈ names rest := by
  rw [names, List.map_append, List.mem_append]
  rfl

theorem mem_names_optionalMember {value : Option α} :
    other ∈ names (optionalMember name encode value) ↔ other = name ∧ value.isSome = true := by
  cases value <;> simp [names, optionalMember]

theorem mem_names_listMember {items : List α} :
    other ∈ names (listMember name encode items) ↔ other = name ∧ items ≠ [] := by
  unfold listMember
  split
  · simp_all [names]
  · simp_all [names]

theorem mem_optionalMember {m : String × Json} {value : Option α}
    (h : m ∈ optionalMember name encode value) : ∃ x ∈ value, m = (name, encode x) := by
  cases value with
  | none => cases h
  | some x => exact ⟨x, rfl, List.mem_singleton.1 h⟩

theorem mem_listMember {m : String × Json} {items : List α}
    (h : m ∈ listMember name encode items) : m = (name, .array (items.map encode)) := by
  unfold listMember at h
  split at h
  · cases h
  · exact List.mem_singleton.1 h

theorem filter_eq_nil_of_not_mem_names (h : name ∉ names members) :
    members.filter (·.1 == name) = [] := by
  rw [List.filter_eq_nil_iff]
  intro m hm heq
  exact h (List.mem_map.2 ⟨m, hm, eq_of_beq heq⟩)

theorem filter_optionalMember (value : Option α) :
    (optionalMember name encode value).filter (·.1 == other) =
      if name = other then optionalMember name encode value else [] := by
  cases value with
  | none => simp [optionalMember]
  | some x => by_cases h : name = other <;> simp [optionalMember, h]

theorem filter_listMember (items : List α) :
    (listMember name encode items).filter (·.1 == other) =
      if name = other then listMember name encode items else [] := by
  unfold listMember
  split
  · simp
  · by_cases h : name = other <;> simp [h]

/-- A field that may be absent is read of its value, and not read where that is `null`. -/
theorem optional_of_filter_bind {β : Type} (encode : α → Json) {decode : Json → Option β}
    {f : α → Option β} {value : Option α}
    (h : members.filter (·.1 == name) = optionalMember name encode value)
    (hnull : ∀ x ∈ value, encode x = .null → f x = none)
    (hvalue : ∀ x ∈ value, encode x ≠ .null → ∃ y, decode (encode x) = some y ∧ f x = some y) :
    optional members name decode = some (value.bind f) := by
  unfold optional field?
  rw [h]
  cases value with
  | none => rfl
  | some x =>
    by_cases hx : encode x = .null
    · simp only [optionalMember, hx, Option.bind_eq_bind, Option.bind_some, hnull x rfl hx]
      rfl
    · obtain ⟨y, hdecode, hy⟩ := hvalue x rfl hx
      simp only [optionalMember, Option.bind_eq_bind, Option.bind_some, hdecode, hy]
      rfl

/-- A field that may be absent reads as it was written, if its values are not written as `null`. -/
theorem optional_of_filter (encode : α → Json) {value : Option α}
    (h : members.filter (·.1 == name) = optionalMember name encode value)
    (hvalue : ∀ x ∈ value, encode x ≠ .null ∧ decode (encode x) = some x) :
    optional members name decode = some value := by
  rw [optional_of_filter_bind encode h (f := some) (fun x hx hnull => absurd hnull (hvalue x hx).1)
    fun x hx _ => ⟨x, (hvalue x hx).2, rfl⟩, Option.bind_fun_some]

/-- A field whose decoder never fails reads as it was written. -/
theorem withDefault_of_filter (encode : α → Json) {decode : Json → Option α} {value : Option α}
    (h : members.filter (·.1 == name) = optionalMember name encode value)
    (hvalue : ∀ x, decode (encode x) = some x) :
    withDefault members name none (fun j => some (decode j)) = some value := by
  unfold withDefault field?
  rw [h]
  cases value with
  | none => rfl
  | some x => exact congrArg some (hvalue x)

/-- A list field decodes item by item; left out, it is empty. -/
theorem withDefault_listOf? {β : Type} (encode : α → Json) {f : α → β} {decode : Json → Option β}
    {xs : List α} (h : members.filter (·.1 == name) = listMember name encode xs)
    (hitem : ∀ x ∈ xs, decode (encode x) = some (f x)) :
    withDefault members name [] (listOf? decode) = some (xs.map f) := by
  unfold withDefault field?
  rw [h]
  cases xs with
  | nil => rfl
  | cons x xs => exact List.mapM_map_eq_some hitem

theorem fits_optionalMember {d : Nat} {value : Option α} (h : ∀ x ∈ value, (encode x).Fits d) :
    ∀ m ∈ optionalMember name encode value, m.2.Fits d := by
  cases value with
  | none => exact List.forall_mem_nil _
  | some x => exact List.forall_mem_singleton.2 (h x rfl)

theorem fits_listMember {d : Nat} {items : List α} (h : ∀ x ∈ items, (encode x).Fits d) :
    ∀ m ∈ listMember name encode items, m.2.Fits (d + 1) := by
  unfold listMember
  split
  · exact List.forall_mem_nil _
  · refine List.forall_mem_singleton.2 (.array fun j hj => ?_)
    obtain ⟨x, hx, rfl⟩ := List.mem_map.1 hj
    exact h x hx

/-- Of the members of a record, those that are no fields are left. -/
theorem without_append {fields : List String} (hfields : ∀ name ∈ names members, name ∈ fields)
    (hrest : ∀ name ∈ names rest, name ∉ fields) :
    without (members ++ rest) fields = rest := by
  have hdrop : without members fields = [] := by
    rw [without, List.filter_eq_nil_iff]
    intro m hm
    simpa using hfields m.1 (List.mem_map.2 ⟨m, hm, rfl⟩)
  have hkeep : without rest fields = rest := by
    rw [without, List.filter_eq_self]
    intro m hm
    simpa using hrest m.1 (List.mem_map.2 ⟨m, hm, rfl⟩)
  rw [without, List.filter_append]
  show without members fields ++ without rest fields = rest
  rw [hdrop, hkeep, List.nil_append]

end TableGrid.Json
