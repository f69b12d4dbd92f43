import TableGrid.Cell.Patch
import TableGrid.Proofs.Json.Fits
import TableGrid.Proofs.Style.Attributes

/-!
# Contents, patches and entries as JSON

What is read of a JSON value can be written, and reads as itself then.  A number that is not finite
has no JSON form of its own, and neither has a patch with an empty content; reading gives neither of
them.  Both can be written all the same, and `readBack` is what is read of that.

## Key results

- `storable_of_ofJson?`: for contents, patches and entries, what is read can be written
- `ofJson?_toJson`: what is read of what was written
- `Storable.readBack_eq`: what can be written reads as itself
-/

namespace TableGrid

variable {j : Json} {d : Nat} {members : List (String × Json)}

namespace Content

variable {c : Content}

/-- Whether a content can be written and read again: its number, if it is one, is finite. -/
def Storable : Content → Prop
  | .number x => x.isFinite = true
  | _ => True

theorem storable_of_ofJson? (hfits : j.Fits d) (h : ofJson? j = some c) : c.Storable := by
  cases hfits with
  | null | bool _ | string _ =>
    obtain rfl := Option.some.inj h
    trivial
  | number hn =>
    obtain rfl := Option.some.inj h
    exact Json.Number.isFinite_toFloat hn
  | array _ | object _ => cases h

/-- What is read of a content that was written: a number that is not finite is lost. -/
def readBack : Content → Content
  | .number x => if x.isFinite then .number x else .empty
  | c => c

theorem readBack_eq_self_iff : c.readBack = c ↔ c.Storable := by
  cases c with
  | number x => by_cases h : x.isFinite <;> simp [readBack, Storable, h]
  | bool _ | text _ | empty => simp [readBack, Storable]

theorem ofJson?_toJson (c : Content) : ofJson? c.toJson = some c.readBack := by
  cases c with
  | number x => by_cases h : x.isFinite <;> simp [readBack, toJson, ofJson?, h, Json.Number.toFloat]
  | bool _ | text _ | empty => rfl

theorem fits_toJson (c : Content) : c.toJson.Fits d := by
  cases c with
  | bool b => exact .bool b
  | number x =>
    rw [toJson]
    split
    · rename_i hfinite
      exact .number hfinite
    · exact .null
  | text s => exact .string s
  | empty => exact .null

theorem toJson_eq_null_iff : c.toJson = .null ↔ c.readBack = .empty := by
  cases c with
  | number x => by_cases h : x.isFinite <;> simp [readBack, toJson, h]
  | bool _ | text _ | empty => simp [readBack, toJson]

theorem toJson_ne_object (c : Content) (members : List (String × Json)) :
    c.toJson ≠ .object members := by
  cases c with
  | number x =>
    rw [toJson]
    split <;> exact nofun
  | _ => exact nofun

theorem ne_empty_of_ofJson? (h : ofJson? j = some c) (hne : j ≠ .null) : c ≠ .empty := by
  rintro rfl
  cases j with
  | null => exact hne rfl
  | _ => cases h

end Content

theorem spanOfJson?_spanToJson (span : UInt32) : spanOfJson? (spanToJson span) = some span := by
  have hle : span.toNat ≤ maxSpan := Nat.le_of_lt_succ span.toNat_lt
  have hword : (0 : Int) ≤ span.toNat ∧ (span.toNat : Int) ≤ maxSpan := by omega
  rw [spanToJson, spanOfJson?, Json.Number.toNat?, if_pos hword]
  show some (UInt32.ofNat span.toNat) = some span
  rw [UInt32.ofNat_toNat]

theorem fits_spanToJson (span : UInt32) : (spanToJson span).Fits d := by
  refine .number (n := .whole span.toNat) ⟨?_, ?_⟩
  · exact Int.le_trans (by decide) (Int.natCast_nonneg _)
  · exact Int.le_trans (Int.ofNat_le.2 (Nat.le_of_lt span.toNat_lt)) (by decide)

namespace Patch

variable {p : Patch}

/-- Whether a patch can be written and read again. -/
structure Storable (d : Nat) (p : Patch) : Prop where
  content : ∀ c ∈ p.content, c.Storable ∧ c ≠ .empty
  attributes : p.attributes.Storable fieldNames d

/-- What is read of a patch that was written: an empty content is lost. -/
def readBack (p : Patch) : Patch :=
  { p with content := p.content.bind fun c =>
      if c.readBack = .empty then none else some c.readBack }

theorem Storable.readBack_eq (h : p.Storable d) : p.readBack = p := by
  obtain ⟨content, colspan, rowspan, id, attributes⟩ := p
  cases content with
  | none => rfl
  | some c =>
    obtain ⟨hc, hne⟩ := h.content c rfl
    simp [readBack, Content.readBack_eq_self_iff.2 hc, hne]

theorem name_not_mem_fieldNames (key : Property) : key.name ∉ fieldNames := by
  cases key <;> decide

theorem storable_of_ofMembers? (hfits : ∀ m ∈ members, m.2.Fits d)
    (h : ofMembers? members = some p) : p.Storable d := by
  obtain ⟨content, hcontent, h⟩ := Option.bind_eq_some_iff.1 h
  obtain ⟨colspan, -, h⟩ := Option.bind_eq_some_iff.1 h
  obtain ⟨rowspan, -, h⟩ := Option.bind_eq_some_iff.1 h
  obtain ⟨id, -, h⟩ := Option.bind_eq_some_iff.1 h
  obtain rfl := Option.some.inj h
  refine ⟨fun c hc => ?_, ?_⟩
  · -- A content is read where there is no `null`, so it is not empty.
    obtain rfl : content = some c := hc
    obtain ⟨j, hj, hnull, hdecode⟩ := Json.optional_eq_some hcontent
    exact ⟨Content.storable_of_ofJson? (hfits _ hj) hdecode,
      Content.ne_empty_of_ofJson? hdecode hnull⟩
  · exact Attributes.storable_ofMembers_without hfits

/-- What is written in the fields of a patch. -/
def fieldMembers (p : Patch) : List (String × Json) :=
  Json.optionalMember "cell" Content.toJson p.content ++
    Json.optionalMember "colspan" spanToJson p.colspan ++
    Json.optionalMember "rowspan" spanToJson p.rowspan ++
    Json.optionalMember "id" .string p.id

theorem toJson_eq (p : Patch) : p.toJson = .object (p.fieldMembers ++ p.attributes.toMembers) := rfl

theorem fits_toJson (h : p.attributes.Storable fieldNames d) : p.toJson.Fits (d + 1) := by
  rw [toJson_eq]
  refine .object (List.forall_mem_append.2 ⟨?_, h.fits⟩)
  simp only [fieldMembers, List.forall_mem_append]
  exact ⟨⟨⟨Json.fits_optionalMember fun c _ => c.fits_toJson,
    Json.fits_optionalMember fun span _ => fits_spanToJson span⟩,
    Json.fits_optionalMember fun span _ => fits_spanToJson span⟩,
    Json.fits_optionalMember fun text _ => .string text⟩

theorem mem_fieldNames {name : String} (h : name ∈ Json.names p.fieldMembers) :
    name ∈ fieldNames := by
  simp only [fieldMembers, Json.mem_names_append, Json.mem_names_optionalMember] at h
  rcases h with ((⟨rfl, -⟩ | ⟨rfl, -⟩) | ⟨rfl, -⟩) | ⟨rfl, -⟩ <;> decide

theorem ofJson?_toJson (h : p.attributes.Storable fieldNames d) :
    ofJson? p.toJson = some p.readBack := by
  have hfield {name : String} {part : List (String × Json)} (hname : name ∈ fieldNames)
      (hpart : p.fieldMembers.filter (·.1 == name) = part) :
      (p.fieldMembers ++ p.attributes.toMembers).filter (·.1 == name) = part :=
    h.filter_append_toMembers name_not_mem_fieldNames hname hpart
  -- A content is written as `null` where it is lost.
  have hcontent : Json.optional (p.fieldMembers ++ p.attributes.toMembers) "cell" Content.ofJson? =
      some p.readBack.content := by
    refine Json.optional_of_filter_bind Content.toJson (hfield (by decide) ?_) ?_ ?_
    · simp [fieldMembers, Json.filter_optionalMember]
    · intro c _ hnull
      rw [if_pos (Content.toJson_eq_null_iff.1 hnull)]
    · intro c _ hnull
      rw [if_neg fun hempty => hnull (Content.toJson_eq_null_iff.2 hempty)]
      exact ⟨c.readBack, c.ofJson?_toJson, rfl⟩
  have hcolspan : Json.withDefault (p.fieldMembers ++ p.attributes.toMembers) "colspan" none
      (fun j => some (spanOfJson? j)) = some p.colspan := by
    refine Json.withDefault_of_filter spanToJson (hfield (by decide) ?_) spanOfJson?_spanToJson
    simp [fieldMembers, Json.filter_optionalMember]
  have hrowspan : Json.withDefault (p.fieldMembers ++ p.attributes.toMembers) "rowspan" none
      (fun j => some (spanOfJson? j)) = some p.rowspan := by
    refine Json.withDefault_of_filter spanToJson (hfield (by decide) ?_) spanOfJson?_spanToJson
    simp [fieldMembers, Json.filter_optionalMember]
  have hid : Json.optional (p.fieldMembers ++ p.attributes.toMembers) "id" Json.string? =
      some p.id := by
    refine Json.optional_of_filter Json.string (hfield (by decide) ?_) fun text _ => ⟨nofun, rfl⟩
    simp [fieldMembers, Json.filter_optionalMember]
  have hattributes := h.ofMembers_append_toMembers name_not_mem_fieldNames
    p.fieldMembers fun name => mem_fieldNames
  rw [toJson_eq, ofJson?, ofMembers?, hcontent, hcolspan, hrowspan, hid, hattributes]
  rfl

end Patch

namespace Entry

variable {e : Entry}

/-- Whether an entry can be written and read again. -/
def Storable (d : Nat) : Entry → Prop
  | .styled p => p.Storable d
  | .plain c => c.Storable

/-- Whether an entry can be written, and read again but for a content that is lost. -/
def Writable (d : Nat) : Entry → Prop
  | .styled p => p.attributes.Storable Patch.fieldNames d
  | .plain _ => True

/-- What is read of an entry that was written. -/
def readBack : Entry → Entry
  | .styled p => .styled p.readBack
  | .plain c => .plain c.readBack

theorem Storable.writable (h : e.Storable d) : e.Writable d := by
  cases e with
  | styled p => exact Patch.Storable.attributes h
  | plain c => trivial

theorem Storable.readBack_eq (h : e.Storable d) : e.readBack = e := by
  cases e with
  | styled p => exact congrArg styled (Patch.Storable.readBack_eq h)
  | plain c => exact congrArg plain (Content.readBack_eq_self_iff.2 h)

theorem Writable.setContent (h : e.Writable d) (c : Content) : (e.setContent c).Writable d := by
  cases e with
  | styled p => exact h
  | plain _ => trivial

theorem Writable.fits_toJson (h : e.Writable d) : e.toJson.Fits (d + 1) := by
  cases e with
  | styled p => exact Patch.fits_toJson h
  | plain c => exact c.fits_toJson

theorem ofJson?_of_ne_object (h : ∀ members, j ≠ .object members) :
    ofJson? j = (Content.ofJson? j).map .plain := by
  cases j with
  | object members => exact absurd rfl (h members)
  | _ => rfl

theorem storable_of_ofJson? (hfits : j.Fits (d + 1)) (h : ofJson? j = some e) : e.Storable d := by
  by_cases hobject : ∃ members, j = .object members
  · obtain ⟨members, rfl⟩ := hobject
    obtain ⟨p, hp, rfl⟩ := Option.map_eq_some_iff.1 h
    exact Patch.storable_of_ofMembers? (fun m => hfits.of_mem_object) hp
  · rw [ofJson?_of_ne_object fun members heq => hobject ⟨members, heq⟩] at h
    obtain ⟨c, hc, rfl⟩ := Option.map_eq_some_iff.1 h
    exact Content.storable_of_ofJson? hfits hc

theorem Writable.ofJson?_toJson (h : e.Writable d) : ofJson? e.toJson = some e.readBack := by
  cases e with
  | styled p => exact congrArg (Option.map styled) (Patch.ofJson?_toJson h)
  | plain c =>
    show ofJson? c.toJson = _
    rw [ofJson?_of_ne_object c.toJson_ne_object, c.ofJson?_toJson]
    rfl

end Entry

end TableGrid
