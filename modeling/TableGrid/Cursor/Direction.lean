import TableGrid.Text.Blank

/-! # Directions of movement -/

namespace TableGrid

/-- The line that a movement runs along. -/
inductive Axis where
  | vertical
  | horizontal
deriving DecidableEq, Repr

/-- A direction of movement. -/
inductive Direction where
  | up
  | down
  | left
  | right
deriving DecidableEq, Repr

namespace Direction

/-- All directions. -/
def all : List Direction := [up, down, left, right]

/-- The axis of a direction. -/
def axis : Direction → Axis
  | up | down => .vertical
  | left | right => .horizontal

/-- The name of a direction. -/
def name : Direction → String
  | up => "up"
  | down => "down"
  | left => "left"
  | right => "right"

/-- The direction of a name.  Blanks around the name are skipped, and the case of the letters
    from `A` to `Z` does not matter. -/
def ofName? (text : String) : Option Direction :=
  let word := String.ofList ((Text.trim text.toList).map Char.toLower)
  all.find? (·.name == word)

/-- The wording for a name that is no direction. -/
def unknownMessage (text : String) : String := "Unknown direction: " ++ text

end Direction

end TableGrid
