import Mathlib.Data.List.Induction
import TableGrid.Saves

/-!
# The history of saves

What happens to the saves under way is a list of events: tickets are issued, retired, or all
forgotten at once.  A ticket is outstanding if nothing has ended it since it was issued.  The
generations that `Saves` keeps are those of the outstanding tickets, one for each cell.

## Key results

- `Saves.latest_complete`, `Saves.complete_comm`: retiring tickets
- `outstanding_concat`: what one more event does to the outstanding tickets
- `Numbered.eq_of_generation`: no generation is issued twice
- `Numbered.latest_iff`: which generations are kept
- `Numbered.isLatest_iff`: a ticket is the newest of its cell if and only if it is outstanding
- `Saves.Past.foldl_track`: what is past stays past
-/

namespace TableGrid

/-- What can happen to the saves under way. -/
inductive SaveEvent where
  | issued (t : Ticket)
  /-- A ticket has been finished or given up. -/
  | retired (t : Ticket)
  /-- All saves under way have been given up. -/
  | forgotten
deriving DecidableEq

/-- Whether an event ends a ticket: a newer one for the same cell, the end of this one, or the end
    of all. -/
def SaveEvent.Ends (t : Ticket) : SaveEvent → Prop
  | .issued t' => t'.coord = t.coord
  | .retired t' => t'.coord = t.coord ∧ t'.generation = t.generation
  | .forgotten => True

/-- Whether a ticket was issued and nothing has ended it since. -/
def Outstanding (log : List SaveEvent) (t : Ticket) : Prop :=
  ∃ before after, log = before ++ .issued t :: after ∧ ∀ event ∈ after, ¬event.Ends t

theorem not_outstanding_nil (t : Ticket) : ¬Outstanding [] t := by
  rintro ⟨before, after, heq, -⟩
  cases before <;> cases heq

theorem Outstanding.mem {log : List SaveEvent} {t : Ticket} (h : Outstanding log t) :
    .issued t ∈ log := by
  obtain ⟨before, after, rfl, -⟩ := h
  simp

/-- One more event may issue a ticket or end outstanding ones. -/
theorem outstanding_concat {log : List SaveEvent} {event : SaveEvent} {t : Ticket} :
    Outstanding (log ++ [event]) t ↔
      event = .issued t ∨ (Outstanding log t ∧ ¬event.Ends t) := by
  constructor
  -- The event is the one that issued the ticket, or it comes after that one.
  · rintro ⟨before, after, heq, hafter⟩
    rcases List.eq_nil_or_concat after with rfl | ⟨after', last, rfl⟩
    · obtain ⟨-, hlast⟩ := List.append_inj' heq rfl
      exact .inl (List.head_eq_of_cons_eq hlast)
    · rw [List.concat_eq_append, ← List.cons_append, ← List.append_assoc] at heq
      obtain ⟨hlog, hlast⟩ := List.append_inj' heq rfl
      obtain rfl := List.head_eq_of_cons_eq hlast
      exact .inr ⟨⟨before, after', hlog, fun e he => hafter e (by simp [he])⟩, hafter _ (by simp)⟩
  · rintro (rfl | ⟨⟨before, after, rfl, hafter⟩, hevent⟩)
    · exact ⟨log, [], rfl, by simp⟩
    · refine ⟨before, after ++ [event], by simp, ?_⟩
      intro e he
      rcases List.mem_append.1 he with he | he
      · exact hafter e he
      · rw [List.mem_singleton.1 he]
        exact hevent

namespace Saves

/-- What an event does to the saves under way. -/
def track (s : Saves) : SaveEvent → Saves
  | .issued t => ⟨s.latest.insert t.coord t.generation, t.generation⟩
  | .retired t => s.complete t
  | .forgotten => s.clear

theorem issued_complete (s : Saves) (t : Ticket) : (s.complete t).issued = s.issued := by
  unfold complete
  split <;> rfl

theorem isLatest_iff {s : Saves} {t : Ticket} :
    s.isLatest t = true ↔ s.latest[t.coord]? = some t.generation := by
  simp [isLatest]

/-- Retiring a ticket drops its generation. -/
theorem latest_complete {s : Saves} {t : Ticket} {p : Coord} {n : Nat} :
    (s.complete t).latest[p]? = some n ↔
      s.latest[p]? = some n ∧ ¬(t.coord = p ∧ t.generation = n) := by
  unfold complete
  split
  · rename_i hlatest
    rw [isLatest_iff] at hlatest
    simp only [Std.ExtTreeMap.getElem?_erase, Std.compare_eq_iff_eq]
    split
    · rename_i heq
      rw [← heq, hlatest]
      simp
    · rename_i hne
      simp [hne]
  -- A ticket that is not the newest has no generation kept.
  · rename_i hlatest
    rw [isLatest_iff] at hlatest
    refine (and_iff_left_of_imp ?_).symm
    rintro hn ⟨rfl, rfl⟩
    exact hlatest hn

/-- Of each cell only one generation is the newest. -/
theorem generation_eq_of_isLatest {s : Saves} {t t' : Ticket} (h : s.isLatest t = true)
    (h' : s.isLatest t' = true) (hcoord : t.coord = t'.coord) : t.generation = t'.generation := by
  rw [isLatest_iff] at h h'
  rw [hcoord, h'] at h
  exact (Option.some.inj h).symm

/-- Retiring a ticket does not touch those of other generations. -/
theorem isLatest_complete {s : Saves} {t t' : Ticket} (hne : t.generation ≠ t'.generation) :
    (s.complete t').isLatest t = s.isLatest t := by
  rw [Bool.eq_iff_iff, isLatest_iff, isLatest_iff, latest_complete]
  exact and_iff_left fun h => hne h.2.symm

/-- Tickets may be retired in either order. -/
theorem complete_comm (s : Saves) (t t' : Ticket) :
    (s.complete t).complete t' = (s.complete t').complete t := by
  have hlatest : ((s.complete t).complete t').latest = ((s.complete t').complete t).latest := by
    apply Std.ExtTreeMap.ext_getElem?
    intro p
    apply Option.ext
    intro n
    simp only [latest_complete]
    exact and_right_comm
  have hissued : ((s.complete t).complete t').issued = ((s.complete t').complete t).issued := by
    simp only [issued_complete]
  rw [mk.injEq]
  exact ⟨hlatest, hissued⟩

end Saves

/-! ## Numbered histories -/

/-- Whether tickets are numbered on from the generation issued last. -/
def Numbered (s : Saves) : List SaveEvent → Prop
  | [] => True
  | event :: log =>
    (∀ t, event = .issued t → t.generation = s.issued + 1) ∧ Numbered (s.track event) log

theorem numbered_append {s : Saves} {log log' : List SaveEvent} :
    Numbered s (log ++ log') ↔ Numbered s log ∧ Numbered (log.foldl Saves.track s) log' := by
  induction log generalizing s with
  | nil => simp [Numbered]
  | cons event log ih => rw [List.cons_append, Numbered, Numbered, ih, List.foldl_cons, and_assoc]

namespace Numbered

variable {log : List SaveEvent} {t t' : Ticket}

theorem concat_iff {event : SaveEvent} :
    Numbered .none (log ++ [event]) ↔ Numbered .none log ∧
      ∀ t, event = .issued t → t.generation = (log.foldl Saves.track .none).issued + 1 := by
  simp [numbered_append, Numbered]

/-- Generations only go up. -/
theorem issued_le {s : Saves} (h : Numbered s log) :
    s.issued ≤ (log.foldl Saves.track s).issued := by
  induction log generalizing s with
  | nil => exact Nat.le_refl _
  | cons event log ih =>
    refine Nat.le_trans ?_ (ih h.2)
    cases event with
    | issued t =>
      have := h.1 t rfl
      simp only [Saves.track]
      omega
    | retired t => exact Nat.le_of_eq (Saves.issued_complete s t).symm
    | forgotten => exact Nat.le_refl _

/-- No generation is larger than the one issued last. -/
theorem generation_le {s : Saves} (h : Numbered s log) (ht : .issued t ∈ log) :
    t.generation ≤ (log.foldl Saves.track s).issued := by
  induction log generalizing s with
  | nil => cases ht
  | cons event log ih =>
    rcases List.mem_cons.1 ht with rfl | ht
    · exact h.2.issued_le
    · exact ih h.2 ht

/-- No generation is issued twice. -/
theorem eq_of_generation (h : Numbered .none log) (ht : .issued t ∈ log) (ht' : .issued t' ∈ log)
    (heq : t.generation = t'.generation) : t = t' := by
  induction log using List.reverseRecOn with
  | nil => cases ht
  | append_singleton log event ih =>
    obtain ⟨hlog, hevent⟩ := concat_iff.1 h
    -- If one of them was issued last, its generation is larger than all before.
    rcases List.mem_append.1 ht with ht | ht <;> rcases List.mem_append.1 ht' with ht' | ht'
    · exact ih hlog ht ht'
    · have hnew := hevent t' (List.mem_singleton.1 ht').symm
      have hold := hlog.generation_le ht
      omega
    · have hnew := hevent t (List.mem_singleton.1 ht).symm
      have hold := hlog.generation_le ht'
      omega
    · exact SaveEvent.issued.inj
        ((List.mem_singleton.1 ht).trans (List.mem_singleton.1 ht').symm)

/-- The generations kept are those of the outstanding tickets. -/
theorem latest_iff (h : Numbered .none log) {p : Coord} {n : Nat} :
    (log.foldl Saves.track .none).latest[p]? = some n ↔
      ∃ t, Outstanding log t ∧ t.coord = p ∧ t.generation = n := by
  induction log using List.reverseRecOn generalizing p n with
  | nil => simp [Saves.none, not_outstanding_nil]
  | append_singleton log event ih =>
    obtain ⟨hlog, hevent⟩ := concat_iff.1 h
    -- The hypothesis serves all cells and generations, since an event may touch another cell.
    have ih := fun p n => @ih hlog p n
    simp only [outstanding_concat, List.foldl_append, List.foldl_cons, List.foldl_nil]
    cases event with
    | issued t' =>
      simp only [Saves.track, Std.ExtTreeMap.getElem?_insert, Std.compare_eq_iff_eq]
      -- A new ticket is the only one for its cell and does not matter for others.
      split
      · rename_i hp
        constructor
        · intro hn
          exact ⟨t', .inl rfl, hp, Option.some.inj hn⟩
        · rintro ⟨t, heq | ⟨-, hends⟩, hcoord, rfl⟩
          · rw [SaveEvent.issued.inj heq]
          · exact absurd (hp.trans hcoord.symm) hends
      · rename_i hp
        rw [ih]
        constructor
        · rintro ⟨t, ht, hcoord, hn⟩
          exact ⟨t, .inr ⟨ht, fun hends => hp (Eq.trans hends hcoord)⟩, hcoord, hn⟩
        · rintro ⟨t, heq | ⟨ht, -⟩, hcoord, hn⟩
          · exact absurd (SaveEvent.issued.inj heq ▸ hcoord) hp
          · exact ⟨t, ht, hcoord, hn⟩
    | retired t' =>
      rw [Saves.track, Saves.latest_complete, ih]
      constructor
      · rintro ⟨⟨t, ht, rfl, rfl⟩, hne⟩
        exact ⟨t, .inr ⟨ht, hne⟩, rfl, rfl⟩
      · rintro ⟨t, heq | ⟨ht, hends⟩, rfl, rfl⟩
        · cases heq
        · exact ⟨⟨t, ht, rfl, rfl⟩, hends⟩
    | forgotten =>
      simp [Saves.track, Saves.clear, SaveEvent.Ends]

/-- A ticket is the newest of its cell if and only if it is outstanding. -/
theorem isLatest_iff (h : Numbered .none log) (ht : .issued t ∈ log) :
    (log.foldl Saves.track .none).isLatest t = true ↔ Outstanding log t := by
  rw [Saves.isLatest_iff, h.latest_iff]
  -- A generation identifies its ticket.
  constructor
  · rintro ⟨t', ht', -, hgeneration⟩
    rwa [← h.eq_of_generation ht'.mem ht hgeneration]
  · intro hout
    exact ⟨t, hout, rfl, rfl⟩

end Numbered

/-! ## Generations of the past -/

namespace Saves

variable {s : Saves} {n : Nat}

/-- Whether the generations up to `n` have all been issued, and none of them is kept. -/
def Past (s : Saves) (n : Nat) : Prop :=
  n ≤ s.issued ∧ ∀ (p : Coord) (m : Nat), s.latest[p]? = some m → n < m

theorem past_clear (s : Saves) : s.clear.Past s.issued :=
  ⟨Nat.le_refl _, fun p m h => by simp [clear] at h⟩

/-- Tickets of the past are not waited for. -/
theorem Past.isLatest (h : s.Past n) {t : Ticket} (ht : t.generation ≤ n) :
    s.isLatest t = false := by
  rw [Bool.eq_false_iff]
  intro hlatest
  have := h.2 _ _ (isLatest_iff.1 hlatest)
  omega

/-- A new ticket has a generation behind the past ones, and the other events keep no more
    generations than before. -/
theorem Past.track (h : s.Past n) {event : SaveEvent}
    (hnext : ∀ t, event = .issued t → t.generation = s.issued + 1) : (s.track event).Past n := by
  obtain ⟨hissued, hkept⟩ := h
  cases event with
  | issued t =>
    have hnew := hnext t rfl
    refine ⟨by simp only [Saves.track]; omega, fun p m hm => ?_⟩
    simp only [Saves.track, Std.ExtTreeMap.getElem?_insert] at hm
    split at hm
    · have := Option.some.inj hm
      omega
    · exact hkept p m hm
  | retired t =>
    refine ⟨by rwa [Saves.track, issued_complete], fun p m hm => ?_⟩
    exact hkept p m (latest_complete.1 hm).1
  | forgotten => exact ⟨hissued, fun p m hm => by simp [Saves.track, clear] at hm⟩

theorem Past.foldl_track (h : s.Past n) {log : List SaveEvent} (hlog : Numbered s log) :
    (log.foldl Saves.track s).Past n := by
  induction log generalizing s with
  | nil => exact h
  | cons event log ih => exact ih (h.track hlog.1) hlog.2

end Saves

end TableGrid
