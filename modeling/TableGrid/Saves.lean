import TableGrid.Content
import TableGrid.Coord.Basic

/-! # Saves under way

A save is shown at once and answered later, so several may be under way.  Each gets a `Ticket`
with a generation of its own.  Only the newest ticket of a cell may bring its answer in; all
earlier ones are superseded.
-/

namespace TableGrid

/-- A save that waits for its answer. -/
structure Ticket where
  coord : Coord
  generation : Nat
  /-- The content shown meanwhile. -/
  content : Content
deriving DecidableEq

/-- What became of an answer. -/
inductive SaveOutcome where
  /-- The persisted content is shown now. -/
  | applied (persisted : Content)
  /-- A newer edit of the cell stands. -/
  | superseded
deriving DecidableEq

/-- Whether the answer was brought in. -/
def SaveOutcome.isApplied : SaveOutcome → Bool
  | applied _ => true
  | superseded => false

/-- The newest generation under way for each cell. -/
structure Saves where
  latest : Std.ExtTreeMap Coord Nat := ∅
  /-- The last generation issued. -/
  issued : Nat := 0
deriving DecidableEq

namespace Saves

/-- No save was ever issued. -/
def none : Saves := {}

/-- Issue a ticket, superseding an earlier one for the cell. -/
def issue (s : Saves) (p : Coord) (c : Content) : Ticket × Saves :=
  (⟨p, s.issued + 1, c⟩, ⟨s.latest.insert p (s.issued + 1), s.issued + 1⟩)

/-- Whether a ticket is the newest of its cell and under way. -/
def isLatest (s : Saves) (t : Ticket) : Bool := s.latest[t.coord]? == some t.generation

/-- Whether a save is under way for a cell. -/
def inFlight (s : Saves) (p : Coord) : Bool := s.latest.contains p

/-- The number of cells with a save under way. -/
def size (s : Saves) : Nat := s.latest.size

/-- Retire a ticket; one that is not the newest changes nothing. -/
def complete (s : Saves) (t : Ticket) : Saves :=
  if s.isLatest t then { s with latest := s.latest.erase t.coord } else s

/-- Forget all saves under way; generations go on counting. -/
def clear (s : Saves) : Saves := { s with latest := ∅ }

end Saves

end TableGrid
