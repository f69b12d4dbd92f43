import Mathlib.Order.Monotone.Basic
import TableGrid.Proofs.Json.Pretty
import TableGrid.Proofs.Range.Rule

/-!
# Rules written and read again

A rule with bounds reads as itself. A malformed one is written as the string of its text, and what
is read of a string that is no rule is malformed with the text of the string: the text in quotes. So
a malformed rule is never read as itself, and each time it is written and read its text at least
doubles its quotes and backslashes.

## Key results

- `reload?_eq`: what is read of the text of a rule
- `two_mul_marks_le`: what quoting does to quotes
- `reloads?_bounds`, `reloads?_malformed`: rules that are written and read any number of times
- `reloads_iff_bounds`: which rules come back
-/

namespace TableGrid

namespace Json

/-! ## Quoting -/

/-- Whether a character is a quote or a backslash. -/
def isMark (c : Char) : Bool := c == '"' || c == '\\'

/-- The number of quotes and backslashes in a text. -/
def marks (s : String) : Nat := s.toList.countP isMark

/-- A text that is put in quotes again and again. -/
def quoted (s : String) : Nat → String
  | 0 => s
  | n + 1 => quote (quoted s n)

/-- A quote or a backslash is written with a backslash in front of it. -/
theorem countP_escape (c : Char) : 2 * (if isMark c then 1 else 0) ≤ (escape c).countP isMark := by
  by_cases hquote : c = '"'
  · subst hquote
    decide
  · by_cases hbackslash : c = '\\'
    · subst hbackslash
      decide
    · have hmark : isMark c = false := by simp [isMark, hquote, hbackslash]
      simp [hmark]

theorem countP_flatMap_escape (cs : List Char) :
    2 * cs.countP isMark ≤ (cs.flatMap escape).countP isMark := by
  induction cs with
  | nil => exact Nat.le_refl _
  | cons c cs ih =>
    have hc := countP_escape c
    rw [List.flatMap_cons, List.countP_append, List.countP_cons]
    omega

/-- In quotes a text has at least twice its quotes and backslashes, and two more. -/
theorem two_mul_marks_le (s : String) : 2 * marks s + 2 ≤ marks (quote s) := by
  have hcs := countP_flatMap_escape s.toList
  -- The two are the quotes around the text.
  have hquotes : marks (quote s) = (s.toList.flatMap escape).countP isMark + 2 := by
    rw [marks, quote, String.toList_ofList, List.cons_append, List.countP_cons, List.countP_append]
    rfl
  rw [hquotes, marks]
  omega

theorem quote_ne (s : String) : quote s ≠ s := by
  intro h
  have hmarks := two_mul_marks_le s
  rw [h] at hmarks
  omega

theorem le_marks_quoted (s : String) (n : Nat) :
    Nat.pow 2 n * (marks s + 2) ≤ marks (quoted s n) + 2 := by
  -- Two more than the marks at least doubles, since `2 * m + 2 + 2 = 2 * (m + 2)`.
  induction n with
  | zero => exact Nat.le_of_eq (Nat.one_mul _)
  | succ n ih =>
    have hstep := two_mul_marks_le (quoted s n)
    calc Nat.pow 2 (n + 1) * (marks s + 2)
        = 2 * (Nat.pow 2 n * (marks s + 2)) := by
          rw [show Nat.pow 2 (n + 1) = Nat.pow 2 n * 2 from rfl, Nat.mul_comm _ 2, Nat.mul_assoc]
      _ ≤ 2 * (marks (quoted s n) + 2) := Nat.mul_le_mul_left 2 ih
      _ ≤ marks (quoted s (n + 1)) + 2 := by
          show _ ≤ marks (quote (quoted s n)) + 2
          omega

/-- No two of these texts are the same. -/
theorem quoted_injective (s : String) : Function.Injective (quoted s) := by
  have hmono : StrictMono fun n => marks (quoted s n) := by
    refine strictMono_nat_of_lt_succ fun n => ?_
    have hstep := two_mul_marks_le (quoted s n)
    show marks (quoted s n) < marks (quote (quoted s n))
    omega
  exact fun m n h => hmono.injective (congrArg marks h)

end Json

namespace Rule

variable {values : List Int64} {raw : String}

/-! ## Written and read -/

/-- What is read of the text of a rule. -/
def reload? (r : Rule) : Option Rule :=
  (Json.parse? r.toJson.pretty).map fun j => ofJson j.canonical

/-- A rule that is written and read again and again. -/
def reloads? (r : Rule) : Nat → Option Rule
  | 0 => some r
  | n + 1 => (r.reloads? n).bind reload?

/-- A rule is written without binary numbers. -/
theorem not_mem_binaries_toJson (r : Rule) (x : Float) : x ∉ r.toJson.binaries := by
  intro hx
  cases r with
  | bounds values =>
    obtain ⟨j, hj, hx⟩ := Json.mem_binaries_array_iff.1 hx
    obtain ⟨i, -, rfl⟩ := List.mem_map.1 hj
    cases hx
  | malformed raw => cases hx

theorem reload?_eq (r : Rule) : reload? r = some (ofJson r.toJson) := by
  have hfits : r.toJson.Fits Json.maxDepth := r.fits_toJson (Json.maxDepth - 1)
  have hread : Json.parse? r.toJson.pretty = some r.toJson :=
    (hfits.readable fun x hx => absurd hx (r.not_mem_binaries_toJson x)).parseAs?_pretty
  rw [reload?, hread, Option.map_some, canonical_toJson]

theorem reload?_bounds (values : List Int64) :
    reload? (.bounds values) = some (.bounds values) := by
  rw [reload?_eq, ofJson_toJson]
  · rfl
  · intro raw h
    cases h

/-- The text of a malformed rule is put in quotes. -/
theorem reload?_malformed (h : parse? raw = Option.none) :
    reload? (.malformed raw) = some (.malformed (Json.quote raw)) := by
  rw [reload?_eq, ofJson_toJson]
  · rfl
  · rintro raw' heq
    rwa [← Rule.malformed.inj heq]

theorem reloads?_bounds (values : List Int64) (n : Nat) :
    (bounds values).reloads? n = some (.bounds values) := by
  induction n with
  | zero => rfl
  | succ n ih => rw [reloads?, ih, Option.bind_some, reload?_bounds]

/-- The text of a malformed rule stays no rule, and is put in quotes each time. -/
theorem reloads?_malformed (h : parse? raw = Option.none) (n : Nat) :
    (malformed raw).reloads? n = some (.malformed (Json.quoted raw n)) ∧
      parse? (Json.quoted raw n) = Option.none := by
  induction n with
  | zero => exact ⟨rfl, h⟩
  | succ n ih =>
    -- That the text is no rule is needed each time: a rule would be read as its bounds.
    obtain ⟨hreloads, hparse⟩ := ih
    refine ⟨?_, parse?_compact (j := .string (Json.quoted raw n)) nofun nofun⟩
    rw [reloads?, hreloads, Option.bind_some, reload?_malformed hparse]
    rfl

/-- A malformed rule is another one each time. -/
theorem reloads?_inj (h : parse? raw = Option.none) (m n : Nat) :
    (malformed raw).reloads? m = (malformed raw).reloads? n ↔ m = n := by
  rw [(reloads?_malformed h m).1, (reloads?_malformed h n).1, Option.some.injEq,
    Rule.malformed.injEq]
  exact (Json.quoted_injective raw).eq_iff

/-- The rule of a value reads as itself if and only if it has bounds, and then as often as it is
    written. A malformed one is another rule each time: its text is put in quotes, which at least
    doubles the quotes and backslashes in it. -/
theorem reloads_iff_bounds (value : Json) :
    (reload? (ofJson value) = some (ofJson value) ↔ ∃ values, ofJson value = .bounds values) ∧
    (∀ values, ofJson value = .bounds values →
      ∀ n, (ofJson value).reloads? n = some (ofJson value)) ∧
    (∀ raw, ofJson value = .malformed raw →
      (∀ n, (ofJson value).reloads? n = some (.malformed (Json.quoted raw n)) ∧
        Nat.pow 2 n * (Json.marks raw + 2) ≤ Json.marks (Json.quoted raw n) + 2) ∧
      ∀ m n, (ofJson value).reloads? m = (ofJson value).reloads? n ↔ m = n) := by
  cases hvalue : ofJson value with
  | bounds values =>
    refine ⟨⟨fun _ => ⟨values, rfl⟩, fun _ => reload?_bounds values⟩,
      fun _ _ n => reloads?_bounds values n, ?_⟩
    intro raw h
    cases h
  | malformed raw =>
    have hparse := parse?_of_malformed hvalue
    refine ⟨⟨fun h => ?_, ?_⟩, ?_, ?_⟩
    · rw [reload?_malformed hparse, Option.some.injEq, Rule.malformed.injEq] at h
      exact absurd h (Json.quote_ne raw)
    · rintro ⟨values, h⟩
      cases h
    · intro values h
      cases h
    · rintro _ heq
      obtain rfl := Rule.malformed.inj heq
      exact ⟨fun n => ⟨(reloads?_malformed hparse n).1, Json.le_marks_quoted raw n⟩,
        reloads?_inj hparse⟩

/-- A word that is no rule. -/
def wordValue : Json := .string "abc"

theorem reloads_iff_bounds_negative :
    ofJson (.string "[-1, 2]") = .bounds [-1, 2] ∧ ofJson wordValue = .malformed "\"abc\"" ∧
    (ofJson (.string "[-1, 2]")).reloads? 7 = some (.bounds [-1, 2]) ∧
    (ofJson wordValue).reloads? 7 = some (.malformed (Json.quoted "\"abc\"" 7)) ∧
    510 ≤ Json.marks (Json.quoted "\"abc\"" 7) := by
  have hbounds : ofJson (.string "[-1, 2]") = .bounds [-1, 2] := by decide +kernel
  have hword : ofJson wordValue = .malformed "\"abc\"" := by decide +kernel
  have hrule := (reloads_iff_bounds (.string "[-1, 2]")).2.1 _ hbounds 7
  obtain ⟨hreloads, hmarks⟩ := ((reloads_iff_bounds wordValue).2.2 _ hword).1 7
  rw [hbounds] at hrule
  have hpow : Nat.pow 2 7 * (Json.marks "\"abc\"" + 2) = 512 := by decide +kernel
  refine ⟨hbounds, hword, ?_, hreloads, by omega⟩
  rw [hbounds, hrule]

/-- A word that is no rule is stored in quotes, and in quotes of quotes once it was written and
    read. -/
theorem reload_quotes_word :
    ofJson wordValue = .malformed "\"abc\"" ∧
    reload? (ofJson wordValue) = some (.malformed "\"\\\"abc\\\"\"") ∧
    reload? (ofJson wordValue) ≠ some (ofJson wordValue) := by
  refine ⟨?_, ?_, ?_⟩ <;> decide +kernel

end Rule

end TableGrid
