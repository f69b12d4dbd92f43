import TableGrid.Proofs.Json.Fits
import TableGrid.Proofs.Json.Pretty
import TableGrid.Proofs.Style.Attributes

/-!
# Edited attribute sets, written and read again

The name of a property can stand for two things in a set: for a text, and for a value without a text
that was read under it. Reading makes one of them, and edits by name look at the texts only, so a
set can come to have both. It is then written with the name twice, and reading again takes the last
one: the text is lost.

## Key results

- `Edited.kept`: what editing leaves of what reading keeps
- `Edited.reload?_eq`: what an edited set is written and read as
- `reloads_iff_apart`: when that is the set itself, and which edits are read again
- `reload_loses_color`: an edit that is lost
-/

namespace TableGrid.Attributes

variable {a b : Attributes} {key : Property} {name text : String} {d : Nat}

/-! ## Edits -/

/-- The sets that editing arrives at, from sets that are read of values as texts have them. -/
inductive Edited : Attributes → Prop where
  | read {j : Json} {a : Attributes} (hfits : j.Fits Json.maxDepth) (h : ofJson? j = some a) :
    Edited a
  | set {a : Attributes} (h : Edited a) (key : Property) (text : String) : Edited (a.set key text)
  | setNamed {a : Attributes} (h : Edited a) (name text : String) : Edited (a.setNamed name text)
  | remove {a : Attributes} (h : Edited a) (key : Property) : Edited (a.remove key)
  | removeNamed {a : Attributes} (h : Edited a) (name : String) : Edited (a.removeNamed name)
  | merge {lower upper : Attributes} (hlower : Edited lower) (hupper : Edited upper) :
    Edited (lower.merge upper)
  | clear : Edited empty

theorem edited_of_parse? {j : Json} (hj : Json.parse? text = some j) (h : ofJson? j = some a) :
    Edited a :=
  .read (Json.fits_of_parseAs? hj) h

theorem kept_empty : empty.Kept d := by
  intro name value h
  cases h

/-- A text under a name that is no property's is kept as it is. -/
theorem Kept.setNamed (h : a.Kept d) (name text : String) : (a.setNamed name text).Kept d := by
  unfold Attributes.setNamed
  split
  · exact h
  · rename_i hname
    intro other value hvalue
    rw [Std.ExtTreeMap.getElem?_insert] at hvalue
    split at hvalue
    · -- The text itself, which reading keeps since the name is no property's.
      rename_i heq
      obtain rfl := Std.compare_eq_iff_eq.1 heq
      obtain rfl := Option.some.inj hvalue
      refine ⟨?_, rfl, .string text⟩
      simp [otherValue?, hname, Json.isNull]
    · exact h other value hvalue

theorem Kept.removeNamed (h : a.Kept d) (name : String) : (a.removeNamed name).Kept d := by
  unfold Attributes.removeNamed
  split
  · exact h
  · intro other value hvalue
    rw [Std.ExtTreeMap.getElem?_erase] at hvalue
    split at hvalue
    · cases hvalue
    · exact h other value hvalue

theorem Kept.merge (ha : a.Kept d) (hb : b.Kept d) : (a.merge b).Kept d := by
  intro name value hvalue
  rw [Attributes.merge, Std.ExtTreeMap.getElem?_union, Option.or_eq_some_iff] at hvalue
  rcases hvalue with hupper | ⟨-, hlower⟩
  · exact hb name value hupper
  · exact ha name value hlower

/-- What an edited set keeps beside its properties is as reading keeps it. -/
theorem Edited.kept (h : Edited a) : a.Kept (Json.maxDepth - 1) := by
  -- By the edits; those of properties leave alone what is kept beside them.
  induction h with
  | read hfits h => exact (storable_of_ofJson? hfits h).isKept
  | set _ key text ih => exact ih
  | setNamed _ name text ih => exact ih.setNamed name text
  | remove _ key ih => exact ih
  | removeNamed _ name ih => exact ih.removeNamed name
  | merge _ _ ihlower ihupper => exact ihlower.merge ihupper
  | clear => exact kept_empty

/-! ## Written and read again -/

/-- What is read of the text of a set. -/
def reload? (a : Attributes) : Option Attributes := (Json.parse? a.toJson.pretty).bind ofJson?

/-- Whether the binary numbers that a set keeps read back. -/
def NumbersReadBack (a : Attributes) : Prop :=
  ∀ x ∈ a.toJson.binaries, (Json.Number.binary x).ReadsBack

/-- The binary numbers of a set are those of what it keeps beside its properties. -/
theorem mem_binaries_toJson {x : Float} :
    x ∈ a.toJson.binaries ↔
      ∃ (name : String) (value : Json), a.extra[name]? = some value ∧ x ∈ value.binaries := by
  rw [toJson, Json.mem_binaries_object_iff]
  constructor
  · rintro ⟨⟨name, value⟩, hmem, hx⟩
    rcases mem_toMembers.1 hmem with ⟨key, text, -, -, rfl⟩ | hkept
    · cases hx
    · exact ⟨name, value, hkept, hx⟩
  · rintro ⟨name, value, hkept, hx⟩
    exact ⟨(name, value), mem_toMembers.2 (.inr hkept), hx⟩

theorem NumbersReadBack.set (h : a.NumbersReadBack) (key : Property) (text : String) :
    (a.set key text).NumbersReadBack := by
  intro x hx
  obtain ⟨name, value, hvalue, hx⟩ := mem_binaries_toJson.1 hx
  exact h x (mem_binaries_toJson.2 ⟨name, value, hvalue, hx⟩)

theorem NumbersReadBack.setNamed (h : a.NumbersReadBack) (name text : String) :
    (a.setNamed name text).NumbersReadBack := by
  unfold Attributes.setNamed
  split
  · exact h.set _ text
  · intro x hx
    obtain ⟨other, value, hvalue, hx⟩ := mem_binaries_toJson.1 hx
    rw [Std.ExtTreeMap.getElem?_insert] at hvalue
    split at hvalue
    · -- A text has no numbers.
      obtain rfl := Option.some.inj hvalue
      cases hx
    · exact h x (mem_binaries_toJson.2 ⟨other, value, hvalue, hx⟩)

/-- An edited set reads as itself, without the properties under whose names it keeps something
    else. -/
theorem Edited.reload?_eq (h : Edited a) (hnumbers : a.NumbersReadBack) :
    reload? a = some a.unshadowed := by
  have hread : Json.parse? a.toJson.pretty = some a.toJson :=
    (h.kept.fits_toJson.readable hnumbers).parseAs?_pretty
  rw [reload?, hread, Option.bind_some, toJson, ofJson?, h.kept.ofMembers_toMembers]

/-- An edited set reads as itself if and only if it keeps nothing under the name of a property that
    it has, which is if and only if no name is written twice. A property that was just set is read
    again if and only if nothing is kept under its name; any other text that was just set is. -/
theorem reloads_iff_apart (h : Edited a) (hnumbers : a.NumbersReadBack) :
    reload? a = some a.unshadowed ∧
    (reload? a = some a ↔ a.Apart) ∧
    ((Json.names a.toMembers).Nodup ↔ a.Apart) ∧
    (∀ key text, ∃ b, reload? (a.set key text) = some b ∧
      (b.get? key = some text ↔ a.extra[key.name]? = none)) ∧
    (∀ name text, Property.ofName? name = none →
      ∃ b, reload? (a.setNamed name text) = some b ∧ b.extra[name]? = some (.string text)) := by
  refine ⟨h.reload?_eq hnumbers, ?_, nodup_names_iff, fun key text => ?_, fun name text hname => ?_⟩
  · rw [h.reload?_eq hnumbers, Option.some.injEq, unshadowed_eq_self_iff]
  · refine ⟨_, (h.set key text).reload?_eq (hnumbers.set key text), ?_⟩
    rw [get?, values_unshadowed]
    show (if (a.extra[key.name]?).isSome then none else (a.values.insert key text)[key]?) = _ ↔ _
    rw [Std.ExtTreeMap.getElem?_insert_self]
    cases a.extra[key.name]? <;> simp
  · refine ⟨_, (h.setNamed name text).reload?_eq (hnumbers.setNamed name text), ?_⟩
    show (a.setNamed name text).extra[name]? = _
    rw [Attributes.setNamed, hname]
    exact Std.ExtTreeMap.getElem?_insert_self

/-- A set with a colour that is no text, and a number beside it. -/
def colouredText : String := "\x7b\"color\":[1],\"note\":2.5\x7d"

/-- The set that is read of it. -/
def coloured : Attributes :=
  { extra := .ofList [("color", Json.array [.number (.whole 1)]), ("note", .number (.binary 2.5))] }

theorem edited_coloured : Edited coloured := by
  have hread : (Json.parse? colouredText).bind ofJson? = some coloured := by decide +kernel
  obtain ⟨j, hj, h⟩ := Option.bind_eq_some_iff.1 hread
  exact edited_of_parse? hj h

/-- Of a width and a colour that are set, the width is read again and the colour is not. -/
theorem reloads_iff_apart_coloured :
    Edited coloured ∧ coloured.NumbersReadBack ∧ reload? coloured = some coloured ∧
    (∃ b, reload? (coloured.set .width "2em") = some b ∧ b.get? .width = some "2em") ∧
    (∃ b, reload? (coloured.set .color "red") = some b ∧ b.get? .color ≠ some "red") := by
  have hnumbers : coloured.NumbersReadBack := by
    have hbinaries : coloured.toJson.binaries = [2.5] := by decide +kernel
    have hnumber : (Json.Number.binary 2.5).ReadsBack := by decide +kernel
    intro x hx
    rw [hbinaries, List.mem_singleton] at hx
    rwa [hx]
  obtain ⟨-, hself, -, hset, -⟩ := reloads_iff_apart edited_coloured hnumbers
  refine ⟨edited_coloured, hnumbers, hself.2 fun key _ => Std.ExtTreeMap.getElem?_empty, ?_, ?_⟩
  · obtain ⟨b, hb, hwidth⟩ := hset .width "2em"
    exact ⟨b, hb, hwidth.2 (by decide +kernel)⟩
  · obtain ⟨b, hb, hcolor⟩ := hset .color "red"
    exact ⟨b, hb, fun h => absurd (hcolor.1 h) (by decide +kernel)⟩

/-- A colour that is set over one that is no text is written, but reading gives the set as it was
    before. -/
theorem reload_loses_color :
    Edited (coloured.set .color "red") ∧
    (coloured.set .color "red").toJson.compact =
      "\x7b\"color\":\"red\",\"color\":[1],\"note\":2.5\x7d" ∧
    ¬(Json.names (coloured.set .color "red").toMembers).Nodup ∧
    reload? (coloured.set .color "red") = some coloured ∧
    reload? (coloured.set .color "red") ≠ some (coloured.set .color "red") ∧
    (coloured.set .color "red").get? .color = some "red" ∧ coloured.get? .color = none := by
  refine ⟨edited_coloured.set .color "red", ?_, ?_, ?_, ?_, ?_, ?_⟩ <;> decide +kernel

end TableGrid.Attributes
