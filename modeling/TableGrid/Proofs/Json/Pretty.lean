import Mathlib.Data.List.DropRight
import TableGrid.Json.Parser
import TableGrid.Proofs.Json.Tokens

/-!
# Values that are written read back

The text of a value over several lines reads as the value, if it is nested no deeper than reading
allows, its numbers read back, and the shape that it is read as skips nothing of it.

## Key results

- `Readable.readsAs`: a value in front of any text that does not continue it
- `Readable.parseAs?_pretty`: a whole text
-/

namespace TableGrid.Json

variable {depth fuel k : Nat} {shape : Shape} {s rest : List Char} {j : Json} {items : List Json}
  {members : List (String × Json)}

/-- Whether a value can be read from its text: it is nested no deeper than `depth`, its numbers read
    back, and no member of an object is skipped. -/
inductive Readable : Nat → Shape → Json → Prop where
  | null {depth : Nat} {shape : Shape} : Readable depth shape .null
  | bool {depth : Nat} {shape : Shape} (b : Bool) : Readable depth shape (.bool b)
  | number {depth : Nat} {shape : Shape} {n : Number} (h : n.ReadsBack) :
    Readable depth shape (.number n)
  | string {depth : Nat} {shape : Shape} (text : String) : Readable depth shape (.string text)
  | array {depth : Nat} {shape : Shape} {items : List Json}
    (h : ∀ j ∈ items, Readable depth shape.item j) : Readable (depth + 1) shape (.array items)
  | object {depth : Nat} {shape : Shape} {members : List (String × Json)}
    (hread : ∀ m ∈ members, (shape.member? m.1).isSome = true)
    (h : ∀ m ∈ members, ∀ field, shape.member? m.1 = some field → Readable depth field m.2) :
    Readable (depth + 1) shape (.object members)

/-! ## Texts of values -/

/-- The text of a value. -/
def prettyChars (k : Nat) (j : Json) : List Char := (prettyAt k j).toList

/-- The texts of items with commas between them. -/
def itemChars (k : Nat) (items : List Json) : List Char :=
  [','].intercalate (items.map fun j => (newLine k).toList ++ prettyChars k j)

/-- The text of a member. -/
def memberChars (k : Nat) (m : String × Json) : List Char :=
  (newLine k).toList ++ ((quote m.1).toList ++ ':' :: ' ' :: prettyChars k m.2)

/-- The texts of members with commas between them. -/
def membersChars (k : Nat) (members : List (String × Json)) : List Char :=
  [','].intercalate (members.map (memberChars k))

theorem prettyChars_null : prettyChars k .null = ['n', 'u', 'l', 'l'] := by
  show String.toList "null" = _
  rfl

theorem prettyChars_true : prettyChars k (.bool true) = ['t', 'r', 'u', 'e'] := by
  show String.toList "true" = _
  rfl

theorem prettyChars_false : prettyChars k (.bool false) = ['f', 'a', 'l', 's', 'e'] := by
  show String.toList "false" = _
  rfl

theorem prettyChars_nil : prettyChars k (.array []) = ['[', ']'] := by
  show String.toList "[]" = _
  rfl

theorem prettyChars_empty : prettyChars k (.object []) = ['\x7b', '\x7d'] := by
  show String.toList "\x7b\x7d" = _
  rfl

theorem prettyChars_number (n : Number) : prettyChars k (.number n) = n.text.toList := rfl

theorem prettyChars_string (text : String) :
    prettyChars k (.string text) = (quote text).toList := rfl

theorem prettyItems_eq_map (items : List Json) :
    prettyItems k items = items.map fun j => newLine k ++ prettyAt k j := by
  induction items with
  | nil => rfl
  | cons j items ih => rw [prettyItems, ih, List.map_cons]

theorem prettyMembers_eq_map (members : List (String × Json)) :
    prettyMembers k members =
      members.map fun m => newLine k ++ quote m.1 ++ ": " ++ prettyAt k m.2 := by
  induction members with
  | nil => rfl
  | cons m members ih => rw [prettyMembers, ih, List.map_cons]

theorem prettyChars_array (h : items ≠ []) :
    prettyChars k (.array items) =
      '[' :: (itemChars (k + 1) items ++ ((newLine k).toList ++ [']'])) := by
  have hchars : items.map (String.toList ∘ fun j => newLine (k + 1) ++ prettyAt (k + 1) j) =
      items.map fun j => (newLine (k + 1)).toList ++ prettyChars (k + 1) j :=
    List.map_congr_left fun j _ => String.toList_append
  rw [prettyChars, prettyAt, prettyItems_eq_map]
  · simp only [String.toList_append, String.toList_intercalate, List.map_map, hchars, itemChars,
      List.append_assoc]
    rfl
  · exact h

theorem prettyChars_object (h : members ≠ []) :
    prettyChars k (.object members) =
      '\x7b' :: (membersChars (k + 1) members ++ ((newLine k).toList ++ ['\x7d'])) := by
  have hchars : members.map (String.toList ∘ fun m =>
      newLine (k + 1) ++ quote m.1 ++ ": " ++ prettyAt (k + 1) m.2) =
        members.map (memberChars (k + 1)) := by
    refine List.map_congr_left fun m _ => ?_
    simp only [Function.comp_apply, String.toList_append, memberChars, prettyChars,
      List.append_assoc]
    rfl
  rw [prettyChars, prettyAt, prettyMembers_eq_map]
  · simp only [String.toList_append, String.toList_intercalate, List.map_map, hchars, membersChars,
      List.append_assoc]
    rfl
  · exact h

/-! ## Reading -/

theorem ends_newLine (k : Nat) (s : List Char) : Ends ((newLine k).toList ++ s) := by
  rw [newLine, String.toList_ofList]
  intro c hc
  obtain rfl := Option.some.inj hc
  decide

theorem ends_comma {s : List Char} : Ends (',' :: s) := by
  intro c hc
  obtain rfl := Option.some.inj hc
  decide

theorem readValue_congr (h : skipSpace s = skipSpace rest) :
    readValue fuel depth shape s = readValue fuel depth shape rest := by
  cases fuel with
  | zero => rfl
  | succ fuel => rw [readValue, readValue, h]

/-- Whether a value reads back from its text, whatever comes behind that does not continue it. -/
def ReadsAs (depth : Nat) (shape : Shape) (j : Json) : Prop :=
  ∀ k fuel rest, (prettyChars k j).length ≤ fuel → Ends rest →
    readValue fuel depth shape (prettyChars k j ++ rest) = some (j, rest)

theorem ReadsAs.readValue_newLine (h : ReadsAs depth shape j)
    (hfuel : (prettyChars k j).length ≤ fuel) (hrest : Ends rest) :
    readValue fuel depth shape ((newLine k).toList ++ prettyChars k j ++ rest) =
      some (j, rest) := by
  rw [List.append_assoc, ← h k fuel rest hfuel hrest]
  exact readValue_congr (skipSpace_newLine _ _)

theorem length_newLine (k : Nat) : (newLine k).toList.length = 2 * k + 1 := by
  rw [newLine, String.toList_ofList, List.length_cons, List.length_replicate]

theorem readItems_itemChars (hne : items ≠ []) (h : ∀ j ∈ items, ReadsAs depth shape j) (k k' : Nat)
    (hfuel : (itemChars k items).length ≤ fuel) :
    readItems fuel depth shape (itemChars k items ++ ((newLine k').toList ++ ']' :: rest)) =
      some (items, rest) := by
  -- Each item uses one unit of the fuel, and has at least the line break in front of it.
  induction items generalizing fuel with
  | nil => exact absurd rfl hne
  | cons j items ih =>
    rw [List.forall_mem_cons] at h
    have hpos := length_newLine k
    cases items with
    | nil =>
      rw [itemChars, List.map_singleton, List.intercalate_singleton] at hfuel ⊢
      rw [List.length_append] at hfuel
      obtain ⟨fuel, rfl⟩ : ∃ f, fuel = f + 1 := ⟨fuel - 1, by omega⟩
      rw [readItems, h.1.readValue_newLine (by omega) (ends_newLine _ _)]
      simp only [Option.bind_eq_bind, Option.bind_some, skipSpace_newLine]
      rfl
    | cons j' items =>
      have hchars : itemChars k (j :: j' :: items) =
          (newLine k).toList ++ prettyChars k j ++ ',' :: itemChars k (j' :: items) := by
        rw [itemChars, List.map_cons, List.map_cons, List.intercalate_cons_cons,
          List.append_assoc _ [',']]
        rfl
      rw [hchars] at hfuel ⊢
      rw [List.length_append, List.length_append, List.length_cons] at hfuel
      obtain ⟨fuel, rfl⟩ : ∃ f, fuel = f + 1 := ⟨fuel - 1, by omega⟩
      rw [List.append_assoc, List.cons_append, readItems,
        h.1.readValue_newLine (by omega) ends_comma]
      show (readItems fuel depth shape
        (itemChars k (j' :: items) ++ ((newLine k').toList ++ ']' :: rest))).bind
          (fun p => some (j :: p.1, p.2)) = _
      rw [ih (List.cons_ne_nil _ _) h.2 (by omega)]
      rfl

theorem length_memberChars (k : Nat) (m : String × Json) :
    (memberChars k m).length =
      2 * k + (quote m.1).toList.length + (prettyChars k m.2).length + 3 := by
  rw [memberChars, List.length_append, length_newLine, List.length_append, List.length_cons,
    List.length_cons]
  omega

/-- A member is read up to the comma or the brace behind it. -/
theorem readMembers_memberChars {m : String × Json} {field : Shape} {t : List Char}
    (hfield : shape.member? m.1 = some field) (h : ReadsAs depth field m.2)
    (hfuel : (prettyChars k m.2).length ≤ fuel) (ht : Ends t) :
    readMembers (fuel + 1) depth shape (memberChars k m ++ t) =
      match skipSpace t with
      | ',' :: t => (readMembers fuel depth shape t).bind fun p => some (m :: p.1, p.2)
      | '\x7d' :: rest => some ([m], rest)
      | _ => none := by
  obtain ⟨s, hs, hread⟩ := readString_quote m.1 (':' :: ' ' :: prettyChars k m.2 ++ t)
  have hchars : skipSpace (memberChars k m ++ t) = '"' :: s := by
    have hquote : (quote m.1).toList ++ ':' :: ' ' :: prettyChars k m.2 ++ t = '"' :: s := by
      rw [List.append_assoc]
      exact hs
    rw [memberChars, List.append_assoc, skipSpace_newLine, hquote]
    rfl
  have hvalue : readValue fuel depth field (' ' :: prettyChars k m.2 ++ t) = some (m.2, t) := by
    rw [← h k fuel t hfuel ht]
    exact readValue_congr rfl
  rw [readMembers, hchars]
  show (readString s).bind _ = _
  rw [hread]
  have hcolon : skipSpace (':' :: ' ' :: prettyChars k m.2 ++ t) =
      ':' :: (' ' :: prettyChars k m.2 ++ t) := rfl
  simp only [Option.bind_some, String.ofList_toList, hcolon, hfield]
  rw [hvalue]
  rfl

theorem readMembers_membersChars (hne : members ≠ [])
    (h : ∀ m ∈ members, ∃ field, shape.member? m.1 = some field ∧ ReadsAs depth field m.2)
    (k k' : Nat) (hfuel : (membersChars k members).length ≤ fuel) :
    readMembers fuel depth shape
      (membersChars k members ++ ((newLine k').toList ++ '\x7d' :: rest)) =
        some (members, rest) := by
  -- As with items, the fuel is for the members still to come and what is left of this one.
  induction members generalizing fuel with
  | nil => exact absurd rfl hne
  | cons m members ih =>
    rw [List.forall_mem_cons] at h
    obtain ⟨⟨field, hfield, hvalue⟩, hmembers⟩ := h
    cases members with
    | nil =>
      rw [membersChars, List.map_singleton, List.intercalate_singleton] at hfuel ⊢
      rw [length_memberChars] at hfuel
      obtain ⟨fuel, rfl⟩ : ∃ f, fuel = f + 1 := ⟨fuel - 1, by omega⟩
      rw [readMembers_memberChars hfield hvalue (by omega) (ends_newLine _ _), skipSpace_newLine]
      rfl
    | cons m' members =>
      have hchars : membersChars k (m :: m' :: members) =
          memberChars k m ++ ',' :: membersChars k (m' :: members) := by
        rw [membersChars, List.map_cons, List.map_cons, List.intercalate_cons_cons,
          List.append_assoc _ [',']]
        rfl
      rw [hchars] at hfuel ⊢
      rw [List.length_append, List.length_cons, length_memberChars] at hfuel
      obtain ⟨fuel, rfl⟩ : ∃ f, fuel = f + 1 := ⟨fuel - 1, by omega⟩
      rw [List.append_assoc, List.cons_append,
        readMembers_memberChars hfield hvalue (by omega) ends_comma]
      show (readMembers fuel depth shape
        (membersChars k (m' :: members) ++ ((newLine k').toList ++ '\x7d' :: rest))).bind
          (fun p => some (m :: p.1, p.2)) = _
      rw [ih (List.cons_ne_nil _ _) hmembers (by omega)]
      rfl

theorem readValue_of_scanNumeral {numeral : Numeral} {n : Number}
    (h : scanNumeral s = some (numeral, rest)) (hvalue : numeral.value? = some n) :
    readValue (fuel + 1) depth shape s = some (.number n, rest) := by
  obtain ⟨c, t, rfl, hc⟩ := exists_cons_of_scanNumeral h
  -- No other value starts with a sign or a digit.
  have hne {c' : Char} (hminus : c' ≠ '-') (hdigit : c'.isDigit = false) : c ≠ c' := by
    rintro rfl
    rcases hc with hc | hc
    · exact hminus hc
    · rw [hdigit] at hc
      cases hc
  have hspace : isSpace c = false := by
    simp only [isSpace, Bool.or_eq_false_iff, decide_eq_false_iff_not]
    exact ⟨⟨⟨hne (by decide) (by decide), hne (by decide) (by decide)⟩,
      hne (by decide) (by decide)⟩, hne (by decide) (by decide)⟩
  rw [readValue, skipSpace_cons hspace]
  split
  any_goals
    rename_i heq
    exact absurd (List.cons.inj heq).1 (hne (by decide) (by decide))
  rw [h]
  show (numeral.value?).bind (fun n => some (Json.number n, rest)) = _
  rw [hvalue]
  rfl

theorem skipSpace_skipSpace (s : List Char) : skipSpace (skipSpace s) = skipSpace s :=
  List.dropWhile_idempotent _ _

/-- Behind an opening bracket stands the closing one, or items. -/
theorem readValue_bracket (s : List Char) :
    readValue (fuel + 1) (depth + 1) shape ('[' :: s) =
      match skipSpace s with
      | ']' :: rest => some (.array [], rest)
      | t => (readItems fuel depth shape.item t).map fun p => (.array p.1, p.2) := rfl

/-- Items in brackets are an array. -/
theorem readValue_array (h : readItems fuel depth shape.item s = some (items, rest)) :
    readValue (fuel + 1) (depth + 1) shape ('[' :: s) = some (.array items, rest) := by
  -- The reader looks for the closing bracket behind blanks, and goes on from there.
  have hskip : readItems fuel depth shape.item (skipSpace s) = some (items, rest) := by
    rw [← h]
    cases fuel with
    | zero => rfl
    | succ fuel => rw [readItems, readItems, readValue_congr (skipSpace_skipSpace s)]
  rw [readValue_bracket]
  split
  · -- A bracket starts no item.
    rename_i heq
    rw [heq] at hskip
    cases fuel with
    | zero => cases hskip
    | succ fuel =>
      cases fuel with
      | zero => cases hskip
      | succ fuel => cases hskip
  · rw [hskip]
    rfl

/-- Behind an opening brace stands the closing one, or members. -/
theorem readValue_brace (s : List Char) :
    readValue (fuel + 1) (depth + 1) shape ('\x7b' :: s) =
      match skipSpace s with
      | '\x7d' :: rest => some (.object [], rest)
      | t => (readMembers fuel depth shape t).map fun p => (.object p.1, p.2) := rfl

/-- Members in braces are an object. -/
theorem readValue_object (h : readMembers fuel depth shape s = some (members, rest)) :
    readValue (fuel + 1) (depth + 1) shape ('\x7b' :: s) = some (.object members, rest) := by
  have hskip : readMembers fuel depth shape (skipSpace s) = some (members, rest) := by
    rw [← h]
    cases fuel with
    | zero => rfl
    | succ fuel => rw [readMembers, readMembers, skipSpace_skipSpace]
  rw [readValue_brace]
  split
  · -- A brace starts no member.
    rename_i heq
    rw [heq] at hskip
    cases fuel with
    | zero => cases hskip
    | succ fuel => cases hskip
  · rw [hskip]
    rfl

theorem exists_fuel_of_cons {c : Char} {s : List Char} (h : (c :: s).length ≤ fuel) :
    ∃ f, fuel = f + 1 ∧ s.length ≤ f := by
  rw [List.length_cons] at h
  exact ⟨fuel - 1, by omega, by omega⟩

/-! ## Each kind of value -/

theorem readsAs_null : ReadsAs depth shape .null := by
  intro k fuel rest hfuel hrest
  rw [prettyChars_null] at hfuel ⊢
  obtain ⟨fuel, rfl, -⟩ := exists_fuel_of_cons hfuel
  rfl

theorem readsAs_bool (b : Bool) : ReadsAs depth shape (.bool b) := by
  intro k fuel rest hfuel hrest
  cases b with
  | true =>
    rw [prettyChars_true] at hfuel ⊢
    obtain ⟨fuel, rfl, -⟩ := exists_fuel_of_cons hfuel
    rfl
  | false =>
    rw [prettyChars_false] at hfuel ⊢
    obtain ⟨fuel, rfl, -⟩ := exists_fuel_of_cons hfuel
    rfl

theorem readsAs_number {n : Number} (h : n.ReadsBack) : ReadsAs depth shape (.number n) := by
  intro k fuel rest hfuel hrest
  obtain ⟨numeral, hscan, hvalue⟩ := Number.readsBack_iff.1 h
  rw [prettyChars_number] at hfuel ⊢
  obtain ⟨c, t, heq, -⟩ := exists_cons_of_scanNumeral hscan
  rw [heq] at hfuel
  obtain ⟨fuel, rfl, -⟩ := exists_fuel_of_cons hfuel
  exact readValue_of_scanNumeral (scanNumeral_append hscan hrest) hvalue

theorem readsAs_string (text : String) : ReadsAs depth shape (.string text) := by
  intro k fuel rest hfuel hrest
  rw [prettyChars_string] at hfuel ⊢
  obtain ⟨s, hs, hread⟩ := readString_quote text rest
  obtain ⟨fuel, rfl⟩ : ∃ f, fuel = f + 1 := by
    obtain ⟨s, hs, -⟩ := readString_quote text []
    rw [List.append_nil] at hs
    rw [hs] at hfuel
    obtain ⟨f, heq, -⟩ := exists_fuel_of_cons hfuel
    exact ⟨f, heq⟩
  rw [hs, readValue]
  show (readString s).map _ = _
  rw [hread]
  show some (Json.string (String.ofList text.toList), rest) = _
  rw [String.ofList_toList]

theorem readsAs_array (h : ∀ j ∈ items, ReadsAs depth shape.item j) :
    ReadsAs (depth + 1) shape (.array items) := by
  intro k fuel rest hfuel hrest
  cases items with
  | nil =>
    rw [prettyChars_nil] at hfuel ⊢
    obtain ⟨fuel, rfl, -⟩ := exists_fuel_of_cons hfuel
    rfl
  | cons j items =>
    rw [prettyChars_array (List.cons_ne_nil j items)] at hfuel ⊢
    obtain ⟨fuel, rfl, hlength⟩ := exists_fuel_of_cons hfuel
    rw [List.length_append] at hlength
    rw [List.cons_append, List.append_assoc, List.append_assoc]
    exact readValue_array (readItems_itemChars (List.cons_ne_nil j items) h (k + 1) k (by omega))

theorem readsAs_object
    (h : ∀ m ∈ members, ∃ field, shape.member? m.1 = some field ∧ ReadsAs depth field m.2) :
    ReadsAs (depth + 1) shape (.object members) := by
  intro k fuel rest hfuel hrest
  cases members with
  | nil =>
    rw [prettyChars_empty] at hfuel ⊢
    obtain ⟨fuel, rfl, -⟩ := exists_fuel_of_cons hfuel
    rfl
  | cons m members =>
    rw [prettyChars_object (List.cons_ne_nil m members)] at hfuel ⊢
    obtain ⟨fuel, rfl, hlength⟩ := exists_fuel_of_cons hfuel
    rw [List.length_append] at hlength
    rw [List.cons_append, List.append_assoc, List.append_assoc]
    exact readValue_object
      (readMembers_membersChars (List.cons_ne_nil m members) h (k + 1) k (by omega))

/-- A value reads back. -/
theorem Readable.readsAs (h : Readable depth shape j) : ReadsAs depth shape j := by
  induction h with
  | null => exact readsAs_null
  | bool b => exact readsAs_bool b
  | number h => exact readsAs_number h
  | string text => exact readsAs_string text
  | array h ih => exact readsAs_array ih
  | object hread h ih =>
    refine readsAs_object fun m hm => ?_
    obtain ⟨field, hfield⟩ := Option.isSome_iff_exists.1 (hread m hm)
    exact ⟨field, hfield, ih m hm field hfield⟩

/-- A value over several lines reads back. -/
theorem Readable.parseAs?_pretty (h : Readable maxDepth shape j) :
    parseAs? shape j.pretty = some j := by
  have hread : readValue (2 * (prettyChars 0 j).length + 2) maxDepth shape (prettyChars 0 j) =
      some (j, []) := by
    have hvalue := h.readsAs 0 (2 * (prettyChars 0 j).length + 2) [] (by omega) nofun
    rwa [List.append_nil] at hvalue
  rw [prettyChars] at hread
  rw [parseAs?, pretty, hread]
  rfl

/-! ## Which values can be read -/

mutual

/-- The binary numbers in a value. -/
def binaries : Json → List Float
  | .number (.binary x) => [x]
  | .array items => binariesOfItems items
  | .object members => binariesOfMembers members
  | .null | .bool _ | .number (.whole _) | .string _ => []

/-- The binary numbers in items. -/
def binariesOfItems : List Json → List Float
  | [] => []
  | j :: js => binaries j ++ binariesOfItems js

/-- The binary numbers in the values of members. -/
def binariesOfMembers : List (String × Json) → List Float
  | [] => []
  | (_, j) :: members => binaries j ++ binariesOfMembers members

end

theorem mem_binaries_array_iff {x : Float} :
    x ∈ (Json.array items).binaries ↔ ∃ j ∈ items, x ∈ j.binaries := by
  rw [binaries]
  induction items with
  | nil => simp [binariesOfItems]
  | cons j items ih => rw [binariesOfItems, List.mem_append, ih, List.exists_mem_cons_iff]

theorem mem_binaries_array {x : Float} (hj : j ∈ items) (hx : x ∈ j.binaries) :
    x ∈ (Json.array items).binaries :=
  mem_binaries_array_iff.2 ⟨j, hj, hx⟩

theorem mem_binaries_object_iff {x : Float} :
    x ∈ (Json.object members).binaries ↔ ∃ m ∈ members, x ∈ m.2.binaries := by
  rw [binaries]
  induction members with
  | nil => simp [binariesOfMembers]
  | cons m members ih => rw [binariesOfMembers, List.mem_append, ih, List.exists_mem_cons_iff]

theorem mem_binaries_object {m : String × Json} {x : Float} (hm : m ∈ members)
    (hx : x ∈ m.2.binaries) : x ∈ (Json.object members).binaries :=
  mem_binaries_object_iff.2 ⟨m, hm, hx⟩

/-- What fits is readable if its binary numbers read back. -/
theorem Fits.readable (h : j.Fits depth)
    (hbinaries : ∀ x ∈ j.binaries, (Number.binary x).ReadsBack) : Readable depth .whole j := by
  induction h with
  | null => exact .null
  | bool b => exact .bool b
  | @number _ n h =>
    cases n with
    | whole n => exact .number (readsBack_whole h)
    | binary x => exact .number (hbinaries x (List.mem_singleton_self x))
  | string text => exact .string text
  | array _ ih =>
    exact .array fun j hj => ih j hj fun x hx => hbinaries x (mem_binaries_array hj hx)
  | object _ ih =>
    refine .object (fun _ _ => rfl) fun m hm field hfield => ?_
    obtain rfl := Option.some.inj hfield
    exact ih m hm fun x hx => hbinaries x (mem_binaries_object hm hx)

/-- An object that fits is readable in a shape that reads all of its members whole. -/
theorem Fits.readable_object (h : (Json.object members).Fits (depth + 1))
    (hfields : ∀ m ∈ members, shape.member? m.1 = some .whole)
    (hbinaries : ∀ x ∈ (Json.object members).binaries, (Number.binary x).ReadsBack) :
    Readable (depth + 1) shape (.object members) := by
  refine .object (fun m hm => by rw [hfields m hm]; rfl) fun m hm field hfield => ?_
  rw [hfields m hm] at hfield
  obtain rfl := Option.some.inj hfield
  exact (h.of_mem_object hm).readable fun x hx => hbinaries x (mem_binaries_object hm hx)

end TableGrid.Json
