import TableGrid.Proofs.Cell.Patch

/-!
# Attributes set by their names

A patch can be edited by a name and a text, and the same name and text can be written as an object
with one member and merged into the patch. Under every name both find the same part of the patch.
They differ where the name is that of a span and the text is no number: the object then stands for a
patch without such a span, which leaves the one of the patch as it is, while the edit takes it away.

## Key results

- `ofMembers_singleton`, `ofJson?_singleton`: what an object with one text stands for
- `merge_setNamed`: an attribute set on top of another set
- `merge_of_reads`, `merge_of_unread`: the patch of one text on top of another patch
- `setAttribute_eq_merge_iff`: when both ways agree
- `setAttribute_takes_span_away`: where they do not
-/

namespace TableGrid

/-- One member is sorted. -/
theorem Json.sortMembers_singleton (name : String) (value : Json) :
    sortMembers [(name, value)] = [(name, value)] := rfl

/-! ## Sets of one attribute -/

namespace Attributes

/-- What is set on top is set on both together. -/
theorem merge_set (lower upper : Attributes) (key : Property) (text : String) :
    lower.merge (upper.set key text) = (lower.merge upper).set key text := by
  have hvalues : lower.values ∪ upper.values.insert key text =
      (lower.values ∪ upper.values).insert key text := by
    refine Std.ExtTreeMap.ext_getElem? fun key' => ?_
    simp only [Std.ExtTreeMap.getElem?_union, Std.ExtTreeMap.getElem?_insert]
    split <;> rfl
  rw [merge, set, set, hvalues, merge]

theorem merge_setNamed (lower upper : Attributes) (name text : String) :
    lower.merge (upper.setNamed name text) = (lower.merge upper).setNamed name text := by
  unfold setNamed
  cases Property.ofName? name with
  | some key => exact merge_set lower upper key text
  | none =>
    have hextra : lower.extra ∪ upper.extra.insert name (.string text) =
        (lower.extra ∪ upper.extra).insert name (.string text) := by
      refine Std.ExtTreeMap.ext_getElem? fun name' => ?_
      simp only [Std.ExtTreeMap.getElem?_union, Std.ExtTreeMap.getElem?_insert]
      split <;> rfl
    simp only [merge, hextra]

@[simp] theorem merge_empty (a : Attributes) : a.merge .empty = a := by
  have hvalues : a.values ∪ (∅ : Std.ExtTreeMap Property String) = a.values :=
    Std.ExtTreeMap.ext_getElem? fun key => by simp [Std.ExtTreeMap.getElem?_union]
  have hextra : a.extra ∪ (∅ : Std.ExtTreeMap String Json) = a.extra :=
    Std.ExtTreeMap.ext_getElem? fun key => by simp [Std.ExtTreeMap.getElem?_union]
  change (⟨a.values ∪ ∅, a.extra ∪ ∅⟩ : Attributes) = a
  rw [hvalues, hextra]

/-- A text is taken up under its name, be it that of a property or not. -/
theorem addMember_string (a : Attributes) (name text : String) :
    a.addMember name (.string text) = a.setNamed name text := by
  unfold addMember setNamed
  cases Property.ofName? name <;> rfl

theorem ofMembers_singleton (name text : String) :
    ofMembers [(name, .string text)] = empty.setNamed name text := by
  have hmembers : Json.canonicalMembers [(name, .string text)] = [(name, .string text)] := rfl
  rw [ofMembers, hmembers, Json.sortMembers_singleton]
  exact addMember_string empty name text

end Attributes

namespace Patch

variable {p : Patch} {name text : String}

/-! ## Patches of one attribute -/

/-- Under a name that is no field of a patch there is an attribute. -/
theorem setAttribute_of_not_mem (h : name ∉ fieldNames) (p : Patch) (text : String) :
    p.setAttribute name text = { p with attributes := p.attributes.setNamed name text } := by
  simp only [fieldNames, List.mem_cons, List.not_mem_nil, or_false, not_or] at h
  simp [setAttribute, h]

/-- An object with one text is read as the text set by its name on a patch that changes nothing. -/
theorem ofJson?_singleton (name text : String) :
    ofJson? (.object [(name, .string text)]) = some (empty.setAttribute name text) := by
  by_cases hfield : name ∈ fieldNames
  · -- Each field is found under its name, and no attribute is left beside it.
    simp only [fieldNames, List.mem_cons, List.not_mem_nil, or_false] at hfield
    obtain rfl | rfl | rfl | rfl := hfield <;> rfl
  · have hnone : ∀ field ∈ fieldNames, [(name, Json.string text)].filter (·.1 == field) = [] := by
      intro field hmem
      have hne : name ≠ field := fun heq => hfield (heq ▸ hmem)
      simp [hne]
    have hrest : Json.without [(name, Json.string text)] fieldNames = [(name, .string text)] := by
      simp [Json.without, hfield]
    rw [setAttribute_of_not_mem hfield, ofJson?, ofMembers?, hrest, Attributes.ofMembers_singleton]
    simp only [Json.optional, Json.withDefault, Json.field?, hnone "cell" (by decide),
      hnone "colspan" (by decide), hnone "rowspan" (by decide), hnone "id" (by decide)]
    rfl

/-! ## Both ways to set an attribute -/

/-- Whether a name is that of a span. -/
def IsSpan (name : String) : Prop := name = "colspan" ∨ name = "rowspan"

instance (name : String) : Decidable (IsSpan name) := inferInstanceAs (Decidable (_ ∨ _))

/-- A text that is read has its effect in both ways. -/
theorem merge_of_reads (h : IsSpan name → readSpan? text ≠ none) (p : Patch) :
    p.merge (empty.setAttribute name text) = p.setAttribute name text := by
  by_cases hfield : name ∈ fieldNames
  · have hspan : IsSpan name → ∃ span, readSpan? text = some span := fun hname =>
      Option.ne_none_iff_exists'.1 (h hname)
    simp only [fieldNames, List.mem_cons, List.not_mem_nil, or_false] at hfield
    obtain rfl | rfl | rfl | rfl := hfield
    · simp [merge, setAttribute, empty]
    · obtain ⟨span, hread⟩ := hspan (.inl rfl)
      simp [merge, setAttribute, empty, hread]
    · obtain ⟨span, hread⟩ := hspan (.inr rfl)
      simp [merge, setAttribute, empty, hread]
    · simp [merge, setAttribute, empty]
  · rw [setAttribute_of_not_mem hfield, setAttribute_of_not_mem hfield]
    simp [merge, empty, Attributes.merge_setNamed]

/-- A text that is no number leaves a span as it is when it is merged, and takes it away when it is
    set. -/
theorem merge_of_unread (hname : IsSpan name) (h : readSpan? text = none) (p : Patch) :
    p.merge (empty.setAttribute name text) = p ∧
      p.setAttribute name text = p.removeAttribute name := by
  obtain rfl | rfl := hname <;>
    simp [merge, setAttribute, removeAttribute, empty, h]

theorem removeAttribute_eq_self_iff (hname : IsSpan name) (p : Patch) :
    p.removeAttribute name = p ↔ p.hasAttribute name = false := by
  obtain ⟨content, colspan, rowspan, id, attributes⟩ := p
  obtain rfl | rfl := hname
  · cases colspan <;> simp [removeAttribute, hasAttribute]
  · cases rowspan <;> simp [removeAttribute, hasAttribute]

/-- Whether setting a text takes a span away: the name is that of a span, the text is no number, and
    the patch has such a span. -/
def TakesAway (p : Patch) (name text : String) : Prop :=
  IsSpan name ∧ readSpan? text = none ∧ p.hasAttribute name = true

/-- Setting a text by a name is merging the object with this one text, except where it takes a span
    away. A text that is no number is ignored by merging, and takes the span away when it is set;
    a patch without this span is not changed by either. -/
theorem setAttribute_eq_merge_iff (p : Patch) (name text : String) :
    ∃ decoded, ofJson? (.object [(name, .string text)]) = some decoded ∧
      (p.setAttribute name text = p.merge decoded ↔ ¬p.TakesAway name text) ∧
      (IsSpan name → readSpan? text = none →
        p.merge decoded = p ∧ p.setAttribute name text = p.removeAttribute name) := by
  refine ⟨_, ofJson?_singleton name text, ?_, fun hname hread => merge_of_unread hname hread p⟩
  by_cases hunread : IsSpan name ∧ readSpan? text = none
  · obtain ⟨hname, hread⟩ := hunread
    obtain ⟨hmerge, hset⟩ := merge_of_unread hname hread p
    rw [hmerge, hset, removeAttribute_eq_self_iff hname]
    simp [TakesAway, hname, hread]
  · have hreads : IsSpan name → readSpan? text ≠ none := fun hname hread =>
      hunread ⟨hname, hread⟩
    rw [merge_of_reads hreads]
    simp only [true_iff]
    exact fun htakes => hunread ⟨htakes.1, htakes.2.1⟩

/-- A patch with a span of two columns. -/
def wide : Patch := { colspan := some 2 }

theorem setAttribute_eq_merge_iff_wide :
    IsSpan "colspan" ∧ readSpan? "two" = none ∧
    ∃ decoded, ofJson? (.object [("colspan", .string "two")]) = some decoded ∧
      wide.merge decoded = wide ∧
      wide.setAttribute "colspan" "two" = wide.removeAttribute "colspan" := by
  have hname : IsSpan "colspan" := .inl rfl
  have hread : readSpan? "two" = none := by decide +kernel
  obtain ⟨decoded, hdecode, -, hunread⟩ := setAttribute_eq_merge_iff wide "colspan" "two"
  obtain ⟨hmerge, hset⟩ := hunread hname hread
  exact ⟨hname, hread, decoded, hdecode, hmerge, hset⟩

/-- A text that is no number takes the span away when it is set, and leaves it when it is merged. -/
theorem setAttribute_takes_span_away :
    (wide.setAttribute "colspan" "two").colspan = none ∧
    (ofJson? (.object [("colspan", .string "two")])).map wide.merge = some wide ∧
    (ofJson? (.object [("colspan", .string "two")])).map wide.merge ≠
      some (wide.setAttribute "colspan" "two") := by
  have hread : readSpan? "two" = none := by decide +kernel
  obtain ⟨hmerge, -⟩ := merge_of_unread (.inl rfl) hread wide
  have hset : (wide.setAttribute "colspan" "two").colspan = none := by simp [setAttribute, hread]
  rw [ofJson?_singleton, Option.map_some, hmerge]
  refine ⟨hset, rfl, fun heq => ?_⟩
  rw [← Option.some.inj heq] at hset
  cases hset

end Patch

end TableGrid
