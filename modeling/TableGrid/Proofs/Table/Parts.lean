import TableGrid.Proofs.Cell.Patch
import TableGrid.Proofs.Json.Pretty
import TableGrid.Proofs.Overlay.Entries
import TableGrid.Proofs.Range.Rule
import TableGrid.Table.Json

/-!
# The parts of tables as JSON

Overlays, data blocks, ranged defaults, rows and columns that were read can be written, and read as
themselves then.  Only a malformed rule reads as another one: it is written as its text, and what is
read of that is malformed with the text of the text.  Contents that would be lost do not keep a part
from being written; `readBack` is what is read of it then.

## Key results

- `storable_of_ofJson?`: for each of the parts, what is read can be written
- `ofJson?_toJson`: what is read of what was written
- `Storable.readBack_eq`: what can be written reads as itself
-/

namespace TableGrid

variable {j : Json} {d : Nat}

namespace Overlay

variable {o : Overlay}

/-- Whether an overlay can be written and read again. -/
def Storable (d : Nat) (o : Overlay) : Prop := ∀ key e, o.get? key = some e → e.Storable d

theorem storable_of_ofJson? (hfits : j.Fits (d + 2)) (h : ofJson? j = some o) : o.Storable d := by
  cases j with
  | object members =>
    obtain ⟨entries, hentries, heq⟩ := Option.bind_eq_some_iff.1 h
    obtain rfl := Option.some.inj heq
    intro key e he
    obtain ⟨m, hm, hdecode⟩ :=
      List.exists_mem_of_mapM_eq_some hentries _ (Std.ExtTreeMap.mem_of_getElem?_ofList he)
    obtain ⟨e', he', heq⟩ := Option.bind_eq_some_iff.1 hdecode
    obtain ⟨-, rfl⟩ := Prod.mk.inj (Option.some.inj heq)
    exact Entry.storable_of_ofJson? (hfits.of_mem_object hm) he'
  | _ => cases h

/-- Whether an overlay can be written, and read again but for contents that are lost. -/
def Writable (d : Nat) (o : Overlay) : Prop := ∀ key e, o.get? key = some e → e.Writable d

/-- What is read of an overlay that was written. -/
def readBack (o : Overlay) : Overlay := ⟨o.entries.map fun _ e => e.readBack⟩

theorem get?_readBack (o : Overlay) (key : String) :
    o.readBack.get? key = (o.get? key).map Entry.readBack :=
  Std.ExtTreeMap.getElem?_map

theorem Storable.writable (h : o.Storable d) : o.Writable d :=
  fun key e he => (h key e he).writable

theorem Storable.readBack_eq (h : o.Storable d) : o.readBack = o := by
  apply ext_get?
  intro key
  rw [get?_readBack]
  cases he : o.get? key with
  | none => rfl
  | some e => exact congrArg some (h key e he).readBack_eq

theorem Writable.setContent (h : o.Writable d) (p : Coord) (c : Content) :
    (o.setContent p c).Writable d := by
  intro key e he
  rw [get?_setContent] at he
  split at he
  · obtain rfl := Option.some.inj he
    cases hget : o.getAt? p with
    | none => trivial
    | some e => exact (h _ e hget).setContent c
  · exact h key e he

theorem Writable.ofJson?_toJson (h : o.Writable d) : ofJson? o.toJson = some o.readBack := by
  have hlist : (o.toList.map fun a => (a.1, a.2.readBack)) = o.readBack.toList := by
    rw [toList, toList, readBack, Std.ExtTreeMap.toList_map]
  -- The entries decode one by one, and the map of the list of a map is the map.
  rw [toJson, ofJson?, List.mapM_map_eq_some (f := fun a => (a.1, a.2.readBack)) fun a ha => ?_,
    hlist]
  · show some (Overlay.mk (Std.ExtTreeMap.ofList o.readBack.entries.toList compare)) = _
    rw [Std.ExtTreeMap.ofList_toList]
  · obtain ⟨key, e⟩ := a
    have he : o.get? key = some e := Std.ExtTreeMap.mem_toList_iff_getElem?_eq_some.1 ha
    show (Entry.ofJson? e.toJson).bind _ = _
    rw [(h key e he).ofJson?_toJson]
    rfl

theorem Writable.fits_toJson (h : o.Writable d) : o.toJson.Fits (d + 2) := by
  refine .object fun m hm => ?_
  obtain ⟨⟨key, e⟩, he, rfl⟩ := List.mem_map.1 hm
  exact (h key e (Std.ExtTreeMap.mem_toList_iff_getElem?_eq_some.1 he)).fits_toJson

end Overlay

namespace DataBlock

variable {b : DataBlock}

theorem storable_of_ofJson? (hfits : j.Fits (d + 3)) (h : ofJson? j = some b) :
    b.overlay.Storable d := by
  have hempty : Overlay.empty.Storable d := fun key e he => by cases he
  match j with
  | .object members =>
    obtain ⟨kind, -, h⟩ := Option.bind_eq_some_iff.1 h
    obtain ⟨overlay, hoverlay, h⟩ := Option.bind_eq_some_iff.1 h
    obtain rfl := Option.some.inj h
    rcases Json.withDefault_eq_some hoverlay with rfl | ⟨j, hj, hdecode⟩
    · exact hempty
    · exact Overlay.storable_of_ofJson? (hfits.of_mem_object hj) hdecode
  | .array [] =>
    obtain rfl := Option.some.inj h
    exact hempty
  | .array [kind] =>
    obtain ⟨kind, -, h⟩ := Option.bind_eq_some_iff.1 h
    obtain rfl := Option.some.inj h
    exact hempty
  | .array [kind, overlay] =>
    obtain ⟨kind, -, h⟩ := Option.bind_eq_some_iff.1 h
    obtain ⟨overlay, hoverlay, h⟩ := Option.bind_eq_some_iff.1 h
    obtain rfl := Option.some.inj h
    exact Overlay.storable_of_ofJson? (hfits.of_mem_array (by simp)) hoverlay
  | .array (_ :: _ :: _ :: _) | .null | .bool _ | .number _ | .string _ => cases h

/-- What is read of a data block that was written. -/
def readBack (b : DataBlock) : DataBlock := { b with overlay := b.overlay.readBack }

theorem readBack_eq (h : b.overlay.Storable d) : b.readBack = b := by
  rw [readBack, h.readBack_eq]

theorem ofJson?_toJson (h : b.overlay.Writable d) : ofJson? b.toJson = some b.readBack := by
  obtain ⟨kind, overlay⟩ := b
  have hkind : BlockKind.ofJson? (.string kind.name) = some kind := by cases kind <;> rfl
  show (BlockKind.ofJson? (.string kind.name)).bind
    (fun kind => (Overlay.ofJson? overlay.toJson).bind
      fun overlay => some (DataBlock.mk kind overlay)) = _
  rw [hkind, h.ofJson?_toJson]
  rfl

theorem fits_toJson (h : b.overlay.Writable d) : b.toJson.Fits (d + 3) := by
  refine .object ?_
  simp only [List.forall_mem_cons]
  exact ⟨.string _, h.fits_toJson, List.forall_mem_nil _⟩

/-- Both fields of a data block are read whole. -/
theorem readable_toJson (h : b.overlay.Writable d)
    (hbinaries : ∀ x ∈ b.toJson.binaries, (Json.Number.binary x).ReadsBack) :
    Json.Readable (d + 3) shape b.toJson := by
  refine (fits_toJson h).readable_object ?_ hbinaries
  simp only [List.forall_mem_cons]
  exact ⟨rfl, rfl, List.forall_mem_nil _⟩

theorem toJson_ne_null (b : DataBlock) : b.toJson ≠ .null := nofun

end DataBlock

namespace RangedDefault

variable {r : RangedDefault}

/-- Whether a ranged default can be written and read again. -/
structure Storable (d : Nat) (r : RangedDefault) : Prop where
  rule : ∀ raw, r.rule = .malformed raw → Rule.parse? raw = none
  attributes : r.attributes.Storable [] d

/-- The ranged default that is read of one that was written. -/
def reread (r : RangedDefault) : RangedDefault := { r with rule := r.rule.reread }

/-- A ranged default without the text of a malformed rule. -/
def forgetRaw (r : RangedDefault) : RangedDefault := { r with rule := r.rule.forgetRaw }

theorem forgetRaw_reread (r : RangedDefault) : r.reread.forgetRaw = r.forgetRaw := by
  rw [reread, forgetRaw, Rule.forgetRaw_reread]
  rfl

theorem storable_of_ofJson? (hfits : j.Fits (d + 2)) (h : ofJson? j = some r) : r.Storable d := by
  -- A rule that was left out is not malformed, and the text of one that is malformed is no rule.
  have hnone : ∀ raw, Rule.none = .malformed raw → Rule.parse? raw = none := nofun
  have hrule : ∀ j raw, Rule.ofJson j = .malformed raw → Rule.parse? raw = none :=
    fun j raw => Rule.parse?_of_malformed
  match j with
  | .object members =>
    obtain ⟨rule, hread, h⟩ := Option.bind_eq_some_iff.1 h
    obtain ⟨attributes, hattributes, h⟩ := Option.bind_eq_some_iff.1 h
    obtain rfl := Option.some.inj h
    refine ⟨?_, ?_⟩
    · rcases Json.withDefault_eq_some hread with rfl | ⟨j, -, hdecode⟩
      · exact hnone
      · obtain rfl := Option.some.inj hdecode
        exact hrule _
    · rcases Json.withDefault_eq_some hattributes with rfl | ⟨j, hj, hdecode⟩
      · exact Attributes.storable_empty
      · exact Attributes.storable_of_ofJson? (hfits.of_mem_object hj) hdecode
  | .array [] =>
    obtain rfl := Option.some.inj h
    exact ⟨hnone, Attributes.storable_empty⟩
  | .array [range] =>
    obtain rfl := Option.some.inj h
    exact ⟨hrule _, Attributes.storable_empty⟩
  | .array [range, attributes] =>
    obtain ⟨attributes, hattributes, h⟩ := Option.bind_eq_some_iff.1 h
    obtain rfl := Option.some.inj h
    exact ⟨hrule _, Attributes.storable_of_ofJson? (hfits.of_mem_array (by simp)) hattributes⟩
  | .array (_ :: _ :: _ :: _) | .null | .bool _ | .number _ | .string _ => cases h

theorem Storable.ofJson?_toJson (h : r.Storable d) : ofJson? r.toJson = some r.reread := by
  have hattributes : Attributes.ofJson? r.attributes.toJson = some r.attributes :=
    congrArg some h.attributes.ofMembers_toMembers
  show (Attributes.ofJson? r.attributes.toJson).bind
    (fun attributes =>
      some (RangedDefault.mk (Rule.ofJson r.rule.toJson.canonical) attributes)) = _
  rw [hattributes, Rule.canonical_toJson, Rule.ofJson_toJson h.rule]
  rfl

theorem Storable.fits_toJson (h : r.Storable d) : r.toJson.Fits (d + 2) := by
  refine .object ?_
  simp only [List.forall_mem_cons]
  exact ⟨r.rule.fits_toJson d, h.attributes.fits_toJson, List.forall_mem_nil _⟩

/-- Both fields of a ranged default are read whole. -/
theorem Storable.readable_toJson (h : r.Storable d)
    (hbinaries : ∀ x ∈ r.toJson.binaries, (Json.Number.binary x).ReadsBack) :
    Json.Readable (d + 2) shape r.toJson := by
  refine h.fits_toJson.readable_object ?_ hbinaries
  simp only [List.forall_mem_cons]
  exact ⟨rfl, rfl, List.forall_mem_nil _⟩

end RangedDefault

namespace Row

variable {r : Row}

/-- Whether a row can be written and read again. -/
structure Storable (d : Nat) (r : Row) : Prop where
  cells : ∀ e ∈ r.cells, e.Storable d
  attributes : r.attributes.Storable fieldNames (d + 2)

/-- Whether a row can be written, and read again but for contents that are lost. -/
structure Writable (d : Nat) (r : Row) : Prop where
  cells : ∀ e ∈ r.cells, e.Writable d
  attributes : r.attributes.Storable fieldNames (d + 2)

/-- What is read of a row that was written. -/
def readBack (r : Row) : Row := { r with cells := r.cells.map Entry.readBack }

theorem Storable.writable (h : r.Storable d) : r.Writable d where
  cells := fun e he => (h.cells e he).writable
  attributes := h.attributes

theorem Storable.readBack_eq (h : r.Storable d) : r.readBack = r := by
  rw [readBack, List.map_congr_left fun e he => (h.cells e he).readBack_eq, List.map_id']

theorem name_not_mem_fieldNames (key : Property) : key.name ∉ fieldNames := by
  cases key <;> decide

theorem storable_of_ofJson? (hfits : j.Fits (d + 3)) (h : ofJson? j = some r) : r.Storable d := by
  cases j with
  | object members =>
    obtain ⟨cells, hcells, h⟩ := Option.bind_eq_some_iff.1 h
    obtain ⟨id, -, h⟩ := Option.bind_eq_some_iff.1 h
    obtain rfl := Option.some.inj h
    refine ⟨?_, Attributes.storable_ofMembers_without fun m => hfits.of_mem_object⟩
    exact Json.forall_of_withDefault_listOf? hfits hcells fun _ _ => Entry.storable_of_ofJson?
  | _ => cases h

/-- What is written in the fields of a row. -/
def fieldMembers (r : Row) : List (String × Json) :=
  Json.listMember "row" Entry.toJson r.cells ++ Json.optionalMember "id" .string r.id

theorem toJson_eq (r : Row) : r.toJson = .object (r.fieldMembers ++ r.attributes.toMembers) := rfl

theorem mem_fieldNames {name : String} (h : name ∈ Json.names r.fieldMembers) :
    name ∈ fieldNames := by
  simp only [fieldMembers, Json.mem_names_append, Json.mem_names_optionalMember,
    Json.mem_names_listMember] at h
  rcases h with ⟨rfl, -⟩ | ⟨rfl, -⟩ <;> decide

theorem Writable.ofJson?_toJson (h : r.Writable d) : ofJson? r.toJson = some r.readBack := by
  have hfield {name : String} {part : List (String × Json)} (hname : name ∈ fieldNames)
      (hpart : r.fieldMembers.filter (·.1 == name) = part) :
      (r.fieldMembers ++ r.attributes.toMembers).filter (·.1 == name) = part :=
    h.attributes.filter_append_toMembers name_not_mem_fieldNames hname hpart
  have hcells : Json.withDefault (r.fieldMembers ++ r.attributes.toMembers) "row" []
      (Json.listOf? Entry.ofJson?) = some (r.cells.map Entry.readBack) := by
    refine Json.withDefault_listOf? Entry.toJson (hfield (by decide) ?_) fun e he =>
      (h.cells e he).ofJson?_toJson
    simp [fieldMembers, Json.filter_optionalMember, Json.filter_listMember]
  have hid : Json.optional (r.fieldMembers ++ r.attributes.toMembers) "id" Json.string? =
      some r.id := by
    refine Json.optional_of_filter Json.string (hfield (by decide) ?_) fun text _ => ⟨nofun, rfl⟩
    simp [fieldMembers, Json.filter_optionalMember, Json.filter_listMember]
  have hattributes := h.attributes.ofMembers_append_toMembers name_not_mem_fieldNames
    r.fieldMembers fun name => mem_fieldNames
  rw [toJson_eq, ofJson?, hcells, hid, hattributes]
  rfl

theorem Writable.fits_toJson (h : r.Writable d) : r.toJson.Fits (d + 3) := by
  rw [toJson_eq]
  refine .object (List.forall_mem_append.2 ⟨?_, h.attributes.fits⟩)
  simp only [fieldMembers, List.forall_mem_append]
  exact ⟨Json.fits_listMember fun e he => (h.cells e he).fits_toJson,
    Json.fits_optionalMember fun text _ => .string text⟩

end Row

namespace Column

variable {c : Column}

theorem name_not_mem_fieldNames (key : Property) : key.name ∉ fieldNames := by
  cases key <;> decide

theorem storable_of_ofJson? (hfits : j.Fits (d + 1)) (h : ofJson? j = some c) :
    c.attributes.Storable fieldNames d := by
  cases j with
  | object members =>
    obtain ⟨id, -, h⟩ := Option.bind_eq_some_iff.1 h
    obtain ⟨span, -, h⟩ := Option.bind_eq_some_iff.1 h
    obtain rfl := Option.some.inj h
    exact Attributes.storable_ofMembers_without fun m => hfits.of_mem_object
  | _ => cases h

/-- What is written in the fields of a column. -/
def fieldMembers (c : Column) : List (String × Json) :=
  Json.optionalMember "id" .string c.id ++ Json.optionalMember "span" spanToJson c.span

theorem toJson_eq (c : Column) : c.toJson = .object (c.fieldMembers ++ c.attributes.toMembers) :=
  rfl

theorem mem_fieldNames {name : String} (h : name ∈ Json.names c.fieldMembers) :
    name ∈ fieldNames := by
  simp only [fieldMembers, Json.mem_names_append, Json.mem_names_optionalMember] at h
  rcases h with ⟨rfl, -⟩ | ⟨rfl, -⟩ <;> decide

theorem ofJson?_toJson (h : c.attributes.Storable fieldNames d) : ofJson? c.toJson = some c := by
  have hfield {name : String} {part : List (String × Json)} (hname : name ∈ fieldNames)
      (hpart : c.fieldMembers.filter (·.1 == name) = part) :
      (c.fieldMembers ++ c.attributes.toMembers).filter (·.1 == name) = part :=
    h.filter_append_toMembers name_not_mem_fieldNames hname hpart
  have hid : Json.optional (c.fieldMembers ++ c.attributes.toMembers) "id" Json.string? =
      some c.id := by
    refine Json.optional_of_filter Json.string (hfield (by decide) ?_) fun text _ => ⟨nofun, rfl⟩
    simp [fieldMembers, Json.filter_optionalMember]
  have hspan : Json.withDefault (c.fieldMembers ++ c.attributes.toMembers) "span" none
      (fun j => some (spanOfJson? j)) = some c.span := by
    refine Json.withDefault_of_filter spanToJson (hfield (by decide) ?_) spanOfJson?_spanToJson
    simp [fieldMembers, Json.filter_optionalMember]
  have hattributes := h.ofMembers_append_toMembers name_not_mem_fieldNames
    c.fieldMembers fun name => mem_fieldNames
  rw [toJson_eq, ofJson?, hid, hspan, hattributes]
  rfl

theorem fits_toJson (h : c.attributes.Storable fieldNames d) : c.toJson.Fits (d + 1) := by
  rw [toJson_eq]
  refine .object (List.forall_mem_append.2 ⟨?_, h.fits⟩)
  simp only [fieldMembers, List.forall_mem_append]
  exact ⟨Json.fits_optionalMember fun text _ => .string text,
    Json.fits_optionalMember fun span _ => fits_spanToJson span⟩

end Column

end TableGrid
