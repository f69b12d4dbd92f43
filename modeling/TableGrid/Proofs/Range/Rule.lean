import TableGrid.Proofs.Json.Members
import TableGrid.Proofs.Text.Integer
import TableGrid.Range.Rule

/-!
# Range rules as JSON

A rule that was understood is written as the array of its bounds.  A malformed one is written as the
text of what was read, and that text is no rule either: it has characters that no rule has, or a
number that is too large.

## Key results

- `parse?_eq_none_of_mem`, `parse?_eq_none_of_part`: texts that are no rules
- `parse?_of_malformed`: the text of what is no rule is no rule
- `ofJson_toJson`: what a rule that was written is read as
-/

namespace TableGrid

namespace Json

/-- A word reads as itself. -/
theorem Number.toInt64?_whole (n : Int64) : (Number.whole n.toInt).toInt64? = some n := by
  rw [toInt64?, if_pos ⟨Int64.minValue_le_toInt n, Int64.toInt_le n⟩, Int64.ofInt_toInt]

/-! ## The text of values -/

theorem compactItems_eq_map (items : List Json) : compactItems items = items.map compact := by
  induction items with
  | nil => rfl
  | cons j items ih => rw [compactItems, ih, List.map_cons]

theorem toList_compact_array (items : List Json) :
    (Json.array items).compact.toList =
      '[' :: [','].intercalate (items.map fun j => j.compact.toList) ++ [']'] := by
  rw [compact, compactItems_eq_map, String.toList_append, String.toList_append,
    String.toList_intercalate, List.map_map]
  rfl

/-- The text of a binary number has a point or an exponent, or is `null`. -/
theorem exists_mem_text_binary (x : Float) :
    ∃ c ∈ (Number.binary x).text.toList, c = '.' ∨ c = 'e' ∨ c = 'n' := by
  have hplace : ∀ ds exponent, '.' ∈ Decimal.placePoint true ds exponent := by
    intro ds exponent
    unfold Decimal.placePoint
    dsimp only
    split
    · simp
    · split
      · simp
      · simp
  have hexponent : ∀ ds power, 'e' ∈ Decimal.withExponent ds power := by
    intro ds power
    unfold Decimal.withExponent
    simp
  unfold Number.text numberFormat Decimal.Format.show
  dsimp only
  split
  · exact ⟨'n', by decide, by decide⟩
  · split
    · exact ⟨'n', by split <;> decide, by decide⟩
    · rw [String.toList_ofList]
      split
      · split
        · exact ⟨'.', List.mem_cons_of_mem _ (hplace _ _), by decide⟩
        · exact ⟨'e', List.mem_cons_of_mem _ (hexponent _ _), by decide⟩
      · split
        · exact ⟨'.', hplace _ _, by decide⟩
        · exact ⟨'e', hexponent _ _, by decide⟩

end Json

namespace Rule

variable {text raw : String} {value j : Json} {c : Char}

/-! ## Texts that are no rules -/

/-- A text without its brackets. -/
def inner (text : String) : List Char := (text.toList.erase '[').erase ']'

/-- Whether a character is none of a rule, but for one bracket at its start. -/
def Foreign (c : Char) : Prop :=
  Text.isBlank c = false ∧ c.isDigit = false ∧ c ≠ '+' ∧ c ≠ '-' ∧ c ≠ ',' ∧ c ≠ ']'

instance (c : Char) : Decidable (Foreign c) := inferInstanceAs (Decidable (_ ∧ _))

theorem intercalate_splitOn_inner (text : String) :
    [','].intercalate ((inner text).splitOn ',') = inner text :=
  List.intercalate_splitOn ','

/-- A text is no rule if one of its parts is no number. -/
theorem parse?_eq_none_of_part {part : List Char} {fault : Text.IntegerFault}
    (hpart : part ∈ (inner text).splitOn ',') (hc : c ∈ part) (hblank : Text.isBlank c = false)
    (hread : Text.readSigned (Text.trim part) = .error fault) : parse? text = Option.none := by
  have hinner : c ∈ inner text := by
    rw [← intercalate_splitOn_inner]
    exact List.mem_intercalate_of_mem hpart hc
  have hnonempty : (Text.trim (inner text)).isEmpty = false :=
    List.isEmpty_eq_false_iff.2 (List.ne_nil_of_mem (Text.mem_trim hinner hblank))
  unfold parse?
  dsimp only
  rw [← inner, hnonempty, if_neg Bool.false_ne_true, List.mapM_eq_none_iff.2 ⟨part, hpart, ?_⟩,
    Option.map_none]
  rw [hread]
  rfl

/-- A text is no rule if it has characters that no rule has. -/
theorem parse?_eq_none_of_mem (hc : c ∈ inner text) (hforeign : Foreign c) :
    parse? text = Option.none := by
  obtain ⟨hblank, hdigit, hplus, hminus, hcomma, -⟩ := hforeign
  have hparts := hc
  rw [← intercalate_splitOn_inner] at hparts
  obtain ⟨part, hpart, hmem⟩ := List.exists_mem_of_mem_intercalate hparts hcomma
  cases hread : Text.readSigned (Text.trim part) with
  | error fault => exact parse?_eq_none_of_part hpart hmem hblank hread
  | ok n =>
    have htrim := Text.mem_trim hmem hblank
    obtain h | h | h := (Text.readSigned_eq_ok_iff.1 hread).isDigit_or_sign c htrim
    · rw [h] at hdigit
      cases hdigit
    · exact absurd h hplus
    · exact absurd h hminus

theorem mem_inner (hc : c ∈ text.toList) (hopen : c ≠ '[') (hclose : c ≠ ']') : c ∈ inner text :=
  (List.mem_erase_of_ne hclose).2 ((List.mem_erase_of_ne hopen).2 hc)

/-! ## Malformed rules -/

/-- The text of a value other than a whole number has a character that no rule has; it is a bracket
    only if the value is an array. -/
theorem exists_foreign_mem_compact (hj : ∀ n, j ≠ .number (.whole n)) :
    ∃ c ∈ j.compact.toList, Foreign c ∧ (c = '[' → ∃ items, j = .array items) := by
  match j with
  | .null => exact ⟨'n', by decide, by decide, fun h => absurd h (by decide)⟩
  | .bool true => exact ⟨'e', by decide, by decide, fun h => absurd h (by decide)⟩
  | .bool false => exact ⟨'e', by decide, by decide, fun h => absurd h (by decide)⟩
  | .number (.whole n) => exact absurd rfl (hj n)
  | .number (.binary x) =>
    obtain ⟨c, hc, hor⟩ := Json.exists_mem_text_binary x
    refine ⟨c, hc, ?_⟩
    rcases hor with rfl | rfl | rfl <;> exact ⟨by decide, fun h => absurd h (by decide)⟩
  | .string s =>
    refine ⟨'"', ?_, by decide, fun h => absurd h (by decide)⟩
    show '"' ∈ (Json.quote s).toList
    rw [Json.quote, String.toList_ofList]
    exact List.mem_cons_self
  | .array items =>
    refine ⟨'[', ?_, by decide, fun _ => ⟨items, rfl⟩⟩
    rw [Json.toList_compact_array]
    exact List.mem_cons_self
  | .object members =>
    refine ⟨'\x7b', ?_, by decide, fun h => absurd h (by decide)⟩
    rw [Json.compact, String.toList_append, String.toList_append]
    exact List.mem_append_left _ (List.mem_append_left _ (by decide))

theorem parse?_compact (hwhole : ∀ n, j ≠ .number (.whole n)) (harray : ∀ items, j ≠ .array items) :
    parse? j.compact = Option.none := by
  obtain ⟨c, hc, hforeign, hopen⟩ := exists_foreign_mem_compact hwhole
  refine parse?_eq_none_of_mem (mem_inner hc (fun heq => ?_) hforeign.2.2.2.2.2) hforeign
  obtain ⟨items, hitems⟩ := hopen heq
  exact harray items hitems

theorem inner_compact_array (items : List Json) :
    inner (Json.array items).compact =
      ([','].intercalate (items.map fun j => j.compact.toList) ++ [']']).erase ']' := by
  rw [inner, Json.toList_compact_array, List.cons_append, List.erase_cons_head]

/-- A whole number that is no word is no part of a rule. -/
theorem readSigned_trim_showInt {n : Int} (h : (Json.Number.whole n).toInt64? = Option.none) :
    ∃ fault, Text.readSigned (Text.trim (Text.showInt n).toList) = .error fault := by
  rw [Text.trim_eq_self (Text.spells_showInt n).not_isBlank]
  refine Text.readSigned_showInt_eq_error fun hrange => ?_
  rw [Json.Number.toInt64?, if_pos hrange] at h
  cases h

theorem not_mem_showInt {n : Int} (hdigit : c.isDigit = false) (hminus : c ≠ '-') :
    c ∉ (Text.showInt n).toList := by
  intro hc
  obtain h | h := Text.mem_showInt hc
  · rw [hdigit] at h
    cases h
  · exact hminus h

theorem exists_mem_showInt (n : Int) : ∃ c ∈ (Text.showInt n).toList, Text.isBlank c = false := by
  have hspells := Text.spells_showInt n
  obtain ⟨c, hc⟩ := List.exists_mem_of_ne_nil _ hspells.ne_nil
  exact ⟨c, hc, hspells.not_isBlank c hc⟩

theorem parse?_showInt {n : Int} (h : (Json.Number.whole n).toInt64? = Option.none) :
    parse? (Text.showInt n) = Option.none := by
  have hinner : inner (Text.showInt n) = (Text.showInt n).toList := by
    rw [inner, List.erase_of_not_mem (not_mem_showInt (by decide) (by decide)),
      List.erase_of_not_mem (not_mem_showInt (by decide) (by decide))]
  obtain ⟨fault, hfault⟩ := readSigned_trim_showInt h
  obtain ⟨c, hc, hblank⟩ := exists_mem_showInt n
  refine parse?_eq_none_of_part ?_ hc hblank hfault
  rw [hinner, List.splitOn_eq_singleton (not_mem_showInt (by decide) (by decide))]
  exact List.mem_singleton_self _

/-- An array of whole numbers, one of which is no word, is written as no rule. -/
theorem parse?_compact_whole {ns : List Int} {n : Int} (hn : n ∈ ns)
    (h : (Json.Number.whole n).toInt64? = Option.none) :
    parse? (Json.array (ns.map fun n => .number (.whole n))).compact = Option.none := by
  have htexts : ((ns.map fun n => Json.number (.whole n)).map fun j => j.compact.toList) =
      ns.map fun n => (Text.showInt n).toList := by
    rw [List.map_map]
    rfl
  have hclose : ']' ∉ [','].intercalate (ns.map fun n => (Text.showInt n).toList) := by
    intro hmem
    obtain ⟨text, htext, hmem⟩ := List.exists_mem_of_mem_intercalate hmem (by decide)
    obtain ⟨m, -, rfl⟩ := List.mem_map.1 htext
    exact not_mem_showInt (by decide) (by decide) hmem
  -- Without its brackets and split at its commas, the text is the texts of the numbers.
  have hsplit : (inner (Json.array (ns.map fun n => .number (.whole n))).compact).splitOn ',' =
      ns.map fun n => (Text.showInt n).toList := by
    rw [inner_compact_array, htexts, List.erase_append_right _ hclose, List.erase_cons_head,
      List.append_nil]
    refine List.splitOn_intercalate ',' ?_ ?_
    · intro text htext
      obtain ⟨m, -, rfl⟩ := List.mem_map.1 htext
      exact not_mem_showInt (by decide) (by decide)
    · rw [ne_eq, List.map_eq_nil_iff]
      exact List.ne_nil_of_mem hn
  obtain ⟨fault, hfault⟩ := readSigned_trim_showInt h
  obtain ⟨c, hc, hblank⟩ := exists_mem_showInt n
  refine parse?_eq_none_of_part ?_ hc hblank hfault
  rw [hsplit]
  exact List.mem_map.2 ⟨n, hn, rfl⟩

/-- The whole number that a value is. -/
def wholeValue : Json → Int
  | .number (.whole n) => n
  | _ => 0

theorem parse?_compact_array {items : List Json} (h : items.mapM Json.toInt64? = Option.none) :
    parse? (Json.array items).compact = Option.none := by
  by_cases hwhole : ∃ j ∈ items, ∀ n, j ≠ .number (.whole n)
  · -- The item has a character of its own, behind the bracket that opens the array.
    obtain ⟨j, hj, hne⟩ := hwhole
    obtain ⟨c, hc, hforeign, -⟩ := exists_foreign_mem_compact hne
    refine parse?_eq_none_of_mem ?_ hforeign
    rw [inner_compact_array, List.mem_erase_of_ne hforeign.2.2.2.2.2]
    exact List.mem_append_left _ (List.mem_intercalate_of_mem (List.mem_map.2 ⟨j, hj, rfl⟩) hc)
  · -- All items are whole numbers, and one of them is no word.
    have hall : ∀ j ∈ items, ∃ n, j = .number (.whole n) := by
      intro j hj
      by_contra hne
      exact hwhole ⟨j, hj, fun n hn => hne ⟨n, hn⟩⟩
    have hitems : items = (items.map wholeValue).map fun n => Json.number (.whole n) := by
      rw [List.map_map]
      refine (List.map_id items).symm.trans (List.map_congr_left fun j hj => ?_)
      obtain ⟨n, rfl⟩ := hall j hj
      rfl
    generalize items.map wholeValue = ns at hitems
    subst hitems
    obtain ⟨j, hj, hnone⟩ := List.mapM_eq_none_iff.1 h
    obtain ⟨n, hn, rfl⟩ := List.mem_map.1 hj
    exact parse?_compact_whole hn hnone

theorem isBounds_of_parse? {r : Rule} (h : parse? text = some r) :
    ∃ values, r = .bounds values := by
  unfold parse? at h
  dsimp only at h
  split at h
  · exact ⟨[], (Option.some.inj h).symm⟩
  · obtain ⟨values, -, heq⟩ := Option.map_eq_some_iff.1 h
    exact ⟨values, heq.symm⟩

/-- A rule is malformed where nothing was understood. -/
theorem of_getD_eq_malformed {understood : Option Rule}
    (hbounds : ∀ r, understood = some r → ∃ values, r = .bounds values)
    (h : understood.getD (.malformed text) = .malformed raw) :
    understood = Option.none ∧ raw = text := by
  cases understood with
  | none => exact ⟨rfl, (Rule.malformed.inj h).symm⟩
  | some r =>
    obtain ⟨values, rfl⟩ := hbounds r rfl
    cases h

/-- The text of what is no rule is no rule. -/
theorem parse?_of_malformed (h : ofJson value = .malformed raw) : parse? raw = Option.none := by
  unfold ofJson at h
  match value with
  | .null => cases h
  | .number (.whole n) =>
    obtain ⟨hnone, rfl⟩ := of_getD_eq_malformed
      (fun r hr => by obtain ⟨i, -, rfl⟩ := Option.map_eq_some_iff.1 hr; exact ⟨_, rfl⟩) h
    exact parse?_showInt (Option.map_eq_none_iff.1 hnone)
  | .string s =>
    obtain ⟨-, rfl⟩ := of_getD_eq_malformed (fun r hr => isBounds_of_parse? hr) h
    exact parse?_compact nofun nofun
  | .array items =>
    obtain ⟨hnone, rfl⟩ := of_getD_eq_malformed
      (fun r hr => by obtain ⟨values, -, rfl⟩ := Option.map_eq_some_iff.1 hr; exact ⟨_, rfl⟩) h
    exact parse?_compact_array (Option.map_eq_none_iff.1 hnone)
  | .bool b | .number (.binary x) | .object members =>
    obtain rfl := Rule.malformed.inj h
    exact parse?_compact nofun nofun

/-! ## Writing -/

/-- The rule that is read of a rule that was written: a malformed one stays malformed, with the text
    of its text. -/
def reread : Rule → Rule
  | .bounds values => .bounds values
  | .malformed raw => .malformed (Json.quote raw)

/-- A rule without the text of a malformed one. -/
def forgetRaw : Rule → Rule
  | .bounds values => .bounds values
  | .malformed _ => .malformed ""

theorem forgetRaw_reread (r : Rule) : r.reread.forgetRaw = r.forgetRaw := by
  cases r <;> rfl

theorem fits_toJson (r : Rule) (d : Nat) : r.toJson.Fits (d + 1) := by
  cases r with
  | bounds values =>
    refine .array fun j hj => ?_
    obtain ⟨i, -, rfl⟩ := List.mem_map.1 hj
    refine .number (n := .whole i.toInt) ⟨?_, ?_⟩
    · exact Int.le_trans (by decide) (Int64.minValue_le_toInt i)
    · exact Int.le_trans (Int64.toInt_le i) (by decide)
  | malformed raw => exact .string raw

theorem canonical_toJson (r : Rule) : r.toJson.canonical = r.toJson := by
  cases r with
  | bounds values =>
    rw [toJson, Json.canonical, Json.canonicalItems_eq_map, List.map_map]
    rfl
  | malformed raw => rfl

theorem ofJson_toJson {r : Rule} (h : ∀ raw, r = .malformed raw → parse? raw = Option.none) :
    ofJson r.toJson = r.reread := by
  cases r with
  | bounds values =>
    have hword : ∀ n : Int64, Json.toInt64? (.number (.whole n.toInt)) = some (id n) :=
      Json.Number.toInt64?_whole
    rw [toJson, ofJson]
    simp only [List.mapM_map_eq_some fun n _ => hword n, List.map_id]
    rfl
  | malformed raw =>
    rw [toJson, ofJson]
    simp only [h raw rfl]
    rfl

end Rule

end TableGrid
