import TableGrid.Proofs.Range.Reload
import TableGrid.Proofs.Text.Integer

/-!
# Which texts are rules

A rule is written as a list of integers with commas between them, bare or as a whole in one pair of
brackets, and blanks may stand around the integers and around the brackets. All these texts are read
as the list that they spell, which an array of the same integers gives too.

Reading drops the first bracket of each kind before it looks at the list, wherever they stand. So it
also accepts texts whose brackets are in the wrong places, and `1[2]3` is read as 123.

## Key results

- `mapM_splitOn_of_lists`, `parse?_eq_some_iff`: which lists are read, brackets aside
- `lists_blank_append`, `lists_append_blank`: blanks around a list do not count
- `spelled_iff`: rules are what is read of texts with their brackets in the right places
- `spellings_agree`: one rule for all spellings of a list
- `parse_ok_iff_lists`: what is read and what is not
- `parse_brackets_inside`: a text that is no rule, and read as one
-/

namespace TableGrid.Rule

open Text (Blank Padded Spells)

variable {spells spells' : List Char → Int → Prop} {text : String}
  {cs before after body : List Char} {values : List Int64}

/-! ## Lists of integers -/

/-- How lists of integers are spelled, given how integers are: with commas between them. -/
inductive Lists (spells : List Char → Int → Prop) : List Char → List Int64 → Prop where
  | none {cs : List Char} (h : Blank cs) : Lists spells cs []
  | one {cs : List Char} {n : Int64} (h : Padded spells cs n.toInt) : Lists spells cs [n]
  | more {cs rest : List Char} {m n : Int64} {ns : List Int64} (h : Padded spells cs m.toInt)
      (hrest : Lists spells rest (n :: ns)) : Lists spells (cs ++ ',' :: rest) (m :: n :: ns)

theorem Lists.mono (h : Lists spells cs values) (hspells : ∀ cs i, spells cs i → spells' cs i) :
    Lists spells' cs values := by
  have hpadded : ∀ {cs i}, Padded spells cs i → Padded spells' cs i := by
    intro cs i ⟨before, item, after, hbefore, hafter, hitem, hcs⟩
    exact ⟨before, item, after, hbefore, hafter, hspells item i hitem, hcs⟩
  induction h with
  | none h => exact .none h
  | one h => exact .one (hpadded h)
  | more h _ ih => exact .more (hpadded h) ih

theorem Lists.isBlank_or_digit_or_sign (h : Lists Spells cs values) :
    ∀ c ∈ cs, c ≠ ',' → Text.isBlank c = true ∨ c.isDigit = true ∨ c = '+' ∨ c = '-' := by
  induction h with
  | none h => exact fun c hc _ => .inl (h c hc)
  | one h => exact fun c hc _ => h.isBlank_or_digit_or_sign c hc
  | more h _ ih =>
    intro c hc hne
    rw [List.mem_append, List.mem_cons] at hc
    obtain hc | rfl | hc := hc
    · exact h.isBlank_or_digit_or_sign c hc
    · exact absurd rfl hne
    · exact ih c hc hne

theorem Lists.not_mem_open (h : Lists Spells cs values) : '[' ∉ cs := fun hc =>
  absurd (h.isBlank_or_digit_or_sign _ hc (by decide)) (by decide)

theorem Lists.not_mem_close (h : Lists Spells cs values) : ']' ∉ cs := fun hc =>
  absurd (h.isBlank_or_digit_or_sign _ hc (by decide)) (by decide)

/-- A text of blanks is the empty list, and no other text is. -/
theorem Lists.eq_nil_iff (h : Lists Spells cs values) : values = [] ↔ Blank cs := by
  cases h with
  | none h => exact ⟨fun _ => h, fun _ => rfl⟩
  | one h => exact ⟨fun heq => (by cases heq), fun hblank => absurd hblank h.not_blank⟩
  | more h _ =>
    refine ⟨fun heq => (by cases heq), fun hblank => ?_⟩
    exact absurd (fun c hc => hblank c (List.mem_append_left _ hc)) h.not_blank

/-! ### Blanks around a list -/

theorem lists_blank_append (h : Blank before) :
    Lists Spells (before ++ cs) values ↔ Lists Spells cs values := by
  constructor
  · intro hlists
    generalize heq : before ++ cs = all at hlists
    cases hlists with
    | none hblank =>
      subst heq
      exact .none fun c hc => hblank c (List.mem_append_right _ hc)
    | one hpadded =>
      subst heq
      exact .one ((Text.padded_blank_append h).1 hpadded)
    | more hpadded hrest =>
      obtain ⟨item, rfl, rfl⟩ | ⟨as, rfl, -⟩ := List.append_eq_append_iff.1 heq
      · exact .more ((Text.padded_blank_append h).1 hpadded) hrest
      · -- The blanks do not go as far as the first comma.
        exact absurd (fun c hc => h c (List.mem_append_left _ hc)) hpadded.not_blank
  · intro hlists
    cases hlists with
    | none hblank => exact .none (h.append hblank)
    | one hpadded => exact .one ((Text.padded_blank_append h).2 hpadded)
    | more hpadded hrest =>
      rw [← List.append_assoc]
      exact .more ((Text.padded_blank_append h).2 hpadded) hrest

theorem lists_append_blank (h : Blank after) :
    Lists Spells (cs ++ after) values ↔ Lists Spells cs values := by
  have hcomma : ',' ∉ after := h.not_mem (by decide)
  constructor
  · intro hlists
    generalize heq : cs ++ after = all at hlists
    induction hlists generalizing cs with
    | none hblank =>
      subst heq
      exact .none fun c hc => hblank c (List.mem_append_left _ hc)
    | one hpadded =>
      subst heq
      exact .one ((Text.padded_append_blank h).1 hpadded)
    | more hpadded _ ih =>
      -- Every comma is in front of the blanks.
      obtain ⟨as, -, rfl⟩ | ⟨as, rfl, hrest⟩ := List.append_eq_append_iff.1 heq
      · exact (hcomma (by simp)).elim
      · cases as with
        | nil =>
          rw [List.nil_append] at hrest
          subst hrest
          exact (hcomma List.mem_cons_self).elim
        | cons a as =>
          obtain ⟨rfl, htail⟩ := List.cons.inj hrest
          exact .more hpadded (ih htail.symm)
  · intro hlists
    induction hlists with
    | none hblank => exact .none (hblank.append h)
    | one hpadded => exact .one ((Text.padded_append_blank h).2 hpadded)
    | more hpadded _ ih =>
      rw [List.append_assoc, List.cons_append]
      exact .more hpadded ih

/-! ## Reading lists -/

/-- Read one part of a list. -/
def readPart? (part : List Char) : Option Int64 := (Text.readSigned (Text.trim part)).toOption

theorem readPart?_eq_some_iff {n : Int64} : readPart? cs = some n ↔ Padded Spells cs n.toInt := by
  rw [← Text.readSigned_trim_eq_ok_iff, readPart?]
  cases Text.readSigned (Text.trim cs) <;> simp [Except.toOption]

/-- Behind a part without a comma, a comma begins the next part. -/
theorem splitOn_append_comma (hcomma : ',' ∉ cs) (rest : List Char) :
    (cs ++ ',' :: rest).splitOn ',' = cs :: rest.splitOn ',' := by
  have hsplit : (cs ++ ',' :: rest).splitOn ',' = cs.splitOn ',' ++ rest.splitOn ',' :=
    List.splitOnP_append_cons cs rest (by simp)
  rw [hsplit, List.splitOn_eq_singleton hcomma]
  rfl

theorem lists_of_mapM {parts : List (List Char)} (hne : parts ≠ [])
    (h : parts.mapM readPart? = some values) : Lists Spells ([','].intercalate parts) values := by
  induction parts generalizing values with
  | nil => exact absurd rfl hne
  | cons part parts ih =>
    rw [List.mapM_cons] at h
    obtain ⟨m, hm, h⟩ := Option.bind_eq_some_iff.1 h
    obtain ⟨ns, hns, h⟩ := Option.bind_eq_some_iff.1 h
    obtain rfl := Option.some.inj h
    cases parts with
    | nil =>
      obtain rfl := Option.some.inj hns
      rw [List.intercalate_singleton]
      exact .one (readPart?_eq_some_iff.1 hm)
    | cons part' parts =>
      -- The other parts are a list with at least one item.
      have hrest := ih (List.cons_ne_nil _ _) hns
      rw [List.intercalate_cons_cons, List.append_assoc]
      cases ns with
      | nil =>
        rw [List.mapM_cons] at hns
        obtain ⟨n, -, hns⟩ := Option.bind_eq_some_iff.1 hns
        obtain ⟨ns, -, hns⟩ := Option.bind_eq_some_iff.1 hns
        cases Option.some.inj hns
      | cons n ns => exact .more (readPart?_eq_some_iff.1 hm) hrest

/-- A text is split at its commas into the items of a list. -/
theorem mapM_splitOn_of_lists (h : Lists Spells cs values) (hne : values ≠ []) :
    (cs.splitOn ',').mapM readPart? = some values := by
  have hcomma : ∀ {cs i}, Padded Spells cs i → ',' ∉ cs := fun h hmem =>
    absurd (h.isBlank_or_digit_or_sign _ hmem) (by decide)
  induction h with
  | none _ => exact absurd rfl hne
  | one h =>
    rw [List.splitOn_eq_singleton (hcomma h), List.mapM_cons, readPart?_eq_some_iff.2 h]
    rfl
  | more h _ ih =>
    rw [splitOn_append_comma (hcomma h), List.mapM_cons, readPart?_eq_some_iff.2 h,
      ih (List.cons_ne_nil _ _)]
    rfl

/-- Exactly the lists are read, once the brackets are dropped. -/
theorem parse?_eq_some_iff :
    parse? text = some (.bounds values) ↔ Lists Spells (inner text) values := by
  by_cases hblank : Blank (inner text)
  · have hempty : (Text.trim (inner text)).isEmpty = true := by
      rw [Text.trim_eq_nil_iff.2 hblank]
      rfl
    have hparse : parse? text = some (.bounds []) := if_pos hempty
    rw [hparse, Option.some.injEq, Rule.bounds.injEq]
    constructor
    · intro h
      subst h
      exact .none hblank
    · intro h
      exact (h.eq_nil_iff.2 hblank).symm
  · have hempty : ¬(Text.trim (inner text)).isEmpty = true := by
      rw [List.isEmpty_iff, Text.trim_eq_nil_iff]
      exact hblank
    have hparse : parse? text = (((inner text).splitOn ',').mapM readPart?).map .bounds :=
      if_neg hempty
    rw [hparse, Option.map_eq_some_iff]
    constructor
    · intro ⟨values', hvalues, heq⟩
      obtain rfl := Rule.bounds.inj heq
      have hlists := lists_of_mapM (List.splitOn_ne_nil _ _) hvalues
      rwa [intercalate_splitOn_inner] at hlists
    · intro h
      exact ⟨values, mapM_splitOn_of_lists h fun hnil => hblank (h.eq_nil_iff.1 hnil), rfl⟩

theorem parse_eq_ok {rule : Rule} : parse text = .ok rule ↔ parse? text = some rule := by
  rw [parse]
  cases parse? text <;> simp

theorem parse_eq_ok_iff {rule : Rule} :
    parse text = .ok rule ↔ ∃ values, rule = .bounds values ∧ Lists Spells (inner text) values := by
  rw [parse_eq_ok]
  constructor
  · intro h
    obtain ⟨values, rfl⟩ := isBounds_of_parse? h
    exact ⟨values, rfl, parse?_eq_some_iff.1 h⟩
  · intro ⟨values, hrule, h⟩
    rw [hrule]
    exact parse?_eq_some_iff.2 h

/-! ## Brackets -/

/-- Whether a text is another one in a pair of brackets, with blanks around the brackets. -/
def Enclosed (text : String) (body : List Char) : Prop :=
  ∃ before after, Blank before ∧ Blank after ∧
    text.toList = before ++ '[' :: (body ++ ']' :: after)

/-- Whether a text spells a list as a rule: bare, or as a whole in one pair of brackets. -/
def Spelled (spells : List Char → Int → Prop) (text : String) (values : List Int64) : Prop :=
  Lists spells text.toList values ∨ ∃ body, Enclosed text body ∧ Lists spells body values

/-- Whether brackets stand where rules have them: nowhere, or one opens in front of all else and one
    closes behind all else. -/
def Bracketed (text : String) : Prop :=
  ('[' ∉ text.toList ∧ ']' ∉ text.toList) ∨ ∃ body, Enclosed text body

theorem inner_of_bare (hopen : '[' ∉ text.toList) (hclose : ']' ∉ text.toList) :
    inner text = text.toList := by
  rw [inner, List.erase_of_not_mem hopen, List.erase_of_not_mem hclose]

/-- The bracket that is dropped first is the one in front. -/
theorem Enclosed.exists_inner (h : Enclosed text body) :
    ∃ before after, Blank before ∧ Blank after ∧
      inner text = (before ++ body ++ ']' :: after).erase ']' := by
  obtain ⟨before, after, hbefore, hafter, htext⟩ := h
  have hopen : '[' ∉ before := hbefore.not_mem (by decide)
  refine ⟨before, after, hbefore, hafter, ?_⟩
  rw [inner, htext, List.erase_append_right _ hopen, List.erase_cons_head, List.append_assoc]

/-- In a pair of brackets a list stays, if nothing in it closes. -/
theorem Enclosed.lists_inner_iff (h : Enclosed text body) (hclose : ']' ∉ body) :
    Lists Spells (inner text) values ↔ Lists Spells body values := by
  obtain ⟨before, after, hbefore, hafter, hinner⟩ := h.exists_inner
  have hbefore' : ']' ∉ before := hbefore.not_mem (by decide)
  have hfront : ']' ∉ before ++ body := by simp [hbefore', hclose]
  rw [hinner, List.erase_append_right _ hfront, List.erase_cons_head, lists_append_blank hafter,
    lists_blank_append hbefore]

/-- Only one bracket that closes is dropped. -/
theorem Enclosed.not_mem_close (h : Enclosed text body)
    (hlists : Lists Spells (inner text) values) : ']' ∉ body := by
  obtain ⟨before, after, -, -, hinner⟩ := h.exists_inner
  have hnone : (inner text).count ']' = 0 := List.count_eq_zero.2 hlists.not_mem_close
  rw [hinner, List.count_erase_self, List.count_append, List.count_append,
    List.count_cons_self] at hnone
  exact List.count_eq_zero.1 (by omega)

/-- The rules are what is read of texts with their brackets in the right places. -/
theorem spelled_iff :
    Spelled Spells text values ↔ parse text = .ok (.bounds values) ∧ Bracketed text := by
  rw [parse_eq_ok, parse?_eq_some_iff]
  constructor
  · intro h
    cases h with
    | inl hbare =>
      rw [inner_of_bare hbare.not_mem_open hbare.not_mem_close]
      exact ⟨hbare, .inl ⟨hbare.not_mem_open, hbare.not_mem_close⟩⟩
    | inr h =>
      obtain ⟨body, henclosed, hbody⟩ := h
      exact ⟨(henclosed.lists_inner_iff hbody.not_mem_close).2 hbody, .inr ⟨body, henclosed⟩⟩
  · intro ⟨hlists, hbracketed⟩
    cases hbracketed with
    | inl hbare =>
      rw [inner_of_bare hbare.1 hbare.2] at hlists
      exact .inl hlists
    | inr h =>
      obtain ⟨body, henclosed⟩ := h
      have hclose := henclosed.not_mem_close hlists
      exact .inr ⟨body, henclosed, (henclosed.lists_inner_iff hclose).1 hlists⟩

/-! ## All spellings of a rule -/

/-- The decimal texts of integers with commas between them. -/
def join (values : List Int64) : String :=
  ",".intercalate (values.map fun n => Text.showInt n.toInt)

theorem lists_join (values : List Int64) : Lists Text.IsDecimal (join values).toList values := by
  have hpadded : ∀ n : Int64, Padded Text.IsDecimal (Text.showInt n.toInt).toList n.toInt :=
    fun n => ⟨[], _, [], nofun, nofun, rfl, (List.append_nil _).symm⟩
  have htext : (join values).toList =
      [','].intercalate (values.map fun n => (Text.showInt n.toInt).toList) := by
    rw [join, String.toList_intercalate, List.map_map]
    rfl
  rw [htext]
  clear htext
  induction values with
  | nil => exact .none nofun
  | cons m values ih =>
    cases values with
    | nil =>
      rw [List.map_singleton, List.intercalate_singleton]
      exact .one (hpadded m)
    | cons n values =>
      rw [List.map_cons, List.map_cons, List.intercalate_cons_cons, List.append_assoc]
      exact .more (hpadded m) ih

theorem spelled_join (values : List Int64) : Spelled Text.IsDecimal (join values) values :=
  .inl (lists_join values)

theorem spelled_brackets_join (values : List Int64) :
    Spelled Text.IsDecimal ("[" ++ join values ++ "]") values := by
  refine .inr ⟨(join values).toList, ⟨[], [], nofun, nofun, ?_⟩, lists_join values⟩
  rw [String.toList_append, String.toList_append]
  rfl

theorem Spelled.mono (h : Spelled spells text values)
    (hspells : ∀ cs i, spells cs i → spells' cs i) : Spelled spells' text values := by
  cases h with
  | inl hbare => exact .inl (hbare.mono hspells)
  | inr h =>
    obtain ⟨body, henclosed, hbody⟩ := h
    exact .inr ⟨body, henclosed, hbody.mono hspells⟩

theorem Spelled.ofJson_string (h : Spelled Text.IsDecimal text values) :
    ofJson (.string text) = .bounds values := by
  have hspelled : Spelled Spells text values := by
    refine h.mono fun cs i hdecimal => ?_
    rw [hdecimal]
    exact Text.spells_showInt i
  have hparse : parse? text = some (.bounds values) := parse_eq_ok.1 (spelled_iff.1 hspelled).1
  rw [ofJson, hparse]
  rfl

/-- The array of a list. -/
def wholes (values : List Int64) : Json := .array (values.map fun n => .number (.whole n.toInt))

/-- The values that a list is written as: the array of its integers, a text that spells it, and a
    single integer as itself. -/
inductive Form (values : List Int64) : Json → Prop where
  | array : Form values (wholes values)
  | text {text : String} (h : Spelled Text.IsDecimal text values) : Form values (.string text)
  | number {n : Int64} (h : values = [n]) : Form values (.number (.whole n.toInt))

theorem Form.ofJson_eq {value : Json} (h : Form values value) : ofJson value = .bounds values := by
  cases h with
  | array => exact ofJson_toJson (r := .bounds values) nofun
  | text h => exact h.ofJson_string
  | number h =>
    rw [ofJson, Json.Number.toInt64?_whole, h]
    rfl

/-- All forms of a list are the same rule. It is written as the array, and comes back from there.
    Among the forms are the decimal texts of the integers with commas between them, and these texts
    in brackets. -/
theorem spellings_agree (values : List Int64) :
    (∀ value, Form values value →
      ofJson value = .bounds values ∧ (ofJson value).toJson = wholes values ∧
      ofJson (ofJson value).toJson = ofJson value ∧ reload? (ofJson value) = some (ofJson value)) ∧
    Form values (.string (join values)) ∧ Form values (.string ("[" ++ join values ++ "]")) := by
  refine ⟨fun value h => ?_, .text (spelled_join values), .text (spelled_brackets_join values)⟩
  have hbounds := h.ofJson_eq
  rw [hbounds]
  exact ⟨rfl, rfl, Form.array.ofJson_eq, reload?_bounds values⟩

/-- The least and the greatest bound, with blanks wherever blanks may stand. -/
def extremesText : String := "\u3000[ -9223372036854775808 ,\t9223372036854775807\n] "

theorem spellings_agree_extremes :
    ofJson (.string extremesText) = .bounds [Int64.minValue, Int64.maxValue] ∧
    reload? (ofJson (.string extremesText)) = some (ofJson (.string extremesText)) ∧
    ofJson (.string (join [Int64.minValue, Int64.maxValue])) =
      .bounds [Int64.minValue, Int64.maxValue] ∧
    ofJson (.number (.whole (-1))) = .bounds [-1] ∧ ofJson (.string " [ ] ") = .bounds [] := by
  have hleast : Padded Text.IsDecimal " -9223372036854775808 ".toList Int64.minValue.toInt :=
    ⟨[' '], "-9223372036854775808".toList, [' '], by decide, by decide, by decide +kernel,
      by decide⟩
  have hgreatest : Padded Text.IsDecimal "\t9223372036854775807\n".toList Int64.maxValue.toInt :=
    ⟨['\t'], "9223372036854775807".toList, ['\n'], by decide, by decide, by decide +kernel,
      by decide⟩
  have hextremes : Form [Int64.minValue, Int64.maxValue] (.string extremesText) :=
    .text (.inr ⟨_, ⟨['\u3000'], [' '], by decide, by decide, by decide⟩,
      .more hleast (.one hgreatest)⟩)
  have hempty : Form [] (.string " [ ] ") :=
    .text (.inr ⟨[' '], ⟨[' '], [' '], by decide, by decide, by decide⟩, .none (by decide)⟩)
  obtain ⟨hrule, -, -, hreload⟩ := (spellings_agree _).1 _ hextremes
  obtain ⟨hall, hjoin, -⟩ := spellings_agree [Int64.minValue, Int64.maxValue]
  exact ⟨hrule, hreload, (hall _ hjoin).1, ((spellings_agree [-1]).1 _ (.number rfl)).1,
    ((spellings_agree []).1 _ hempty).1⟩

/-! ## All other texts -/

/-- A text is read if it spells a list once the first bracket of each kind is dropped, and is read
    as that list. The texts that spell a list as they are, are those that are read and have their
    brackets in the right places. A text that is not read is malformed, and matches nothing. -/
theorem parse_ok_iff_lists (text : String) :
    (∀ rule, parse text = .ok rule ↔
      ∃ values, rule = .bounds values ∧ Lists Spells (inner text) values) ∧
    (∀ values, Spelled Spells text values ↔ parse text = .ok (.bounds values) ∧ Bracketed text) ∧
    ((¬∃ values, Lists Spells (inner text) values) →
      parse text = .error (.unmatchedRange text) ∧
      ofJson (.string text) = .malformed (Json.string text).compact ∧
      (∀ rows cols row col, (ofJson (.string text)).matchesCell rows cols row col = false) ∧
      ∀ size i, (ofJson (.string text)).matchesIndex size i = false) := by
  refine ⟨fun rule => parse_eq_ok_iff, fun values => spelled_iff, fun h => ?_⟩
  have hnone : parse? text = Option.none := by
    cases hparse : parse? text with
    | none => rfl
    | some rule =>
      obtain ⟨values, rfl⟩ := isBounds_of_parse? hparse
      exact absurd ⟨values, parse?_eq_some_iff.1 hparse⟩ h
  have herror : parse text = .error (.unmatchedRange text) := by rw [parse, hnone]
  have hmalformed : ofJson (.string text) = .malformed (Json.string text).compact := by
    rw [ofJson, hnone]
    rfl
  rw [hmalformed]
  exact ⟨herror, rfl, fun _ _ _ _ => rfl, fun _ _ => rfl⟩

theorem parse_ok_iff_lists_missing :
    parse "1,,2" = .error (.unmatchedRange "1,,2") ∧
    ofJson (.string "1,,2") = .malformed "\"1,,2\"" ∧
    Spelled Spells "[0, 0, -1, +1]" [0, 0, -1, 1] := by
  have hnone : ¬∃ values, Lists Spells (inner "1,,2") values := by
    intro ⟨values, h⟩
    have hparse : parse? "1,,2" = Option.none := by decide +kernel
    rw [parse?_eq_some_iff.2 h] at hparse
    cases hparse
  have hbracketed : Bracketed "[0, 0, -1, +1]" :=
    .inr ⟨"0, 0, -1, +1".toList, [], [], nofun, nofun, by decide⟩
  obtain ⟨herror, hmalformed, -⟩ := (parse_ok_iff_lists "1,,2").2.2 hnone
  exact ⟨herror, hmalformed, ((parse_ok_iff_lists _).2.1 _).2 ⟨by decide +kernel, hbracketed⟩⟩

/-- The brackets of `1[2]3` are dropped from its inside: it spells no list, and is read as the bound
    123. -/
theorem parse_brackets_inside :
    (∀ values, ¬Spelled Spells "1[2]3" values) ∧ parse "1[2]3" = .ok (.bounds [123]) ∧
    ofJson (.string "1[2]3") = .bounds [123] ∧
    (ofJson (.string "1[2]3")).matchesIndex 200 123 = true := by
  have hparse : parse? "1[2]3" = some (.bounds [123]) := by decide +kernel
  have hrule : ofJson (.string "1[2]3") = .bounds [123] := by
    rw [ofJson, hparse]
    rfl
  refine ⟨fun values h => ?_, parse_eq_ok.2 hparse, hrule, ?_⟩
  · cases (spelled_iff.1 h).2 with
    | inl hbare => exact absurd hbare.1 (by decide)
    | inr henclosed =>
      -- The text starts with a digit, which is neither a blank nor a bracket.
      obtain ⟨body, before, after, hbefore, -, htext⟩ := henclosed
      cases before with
      | nil => cases htext
      | cons c before =>
        have hc : '1' = c := (List.cons.inj htext).1
        have hblank := hbefore c List.mem_cons_self
        rw [← hc] at hblank
        cases hblank
  · rw [hrule]
    decide +kernel

end TableGrid.Rule
