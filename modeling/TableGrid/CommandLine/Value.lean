import TableGrid.Cursor.Direction
import TableGrid.Text.Integer

/-! # Values on a command line

Every argument of a command has a `Kind`, which says how its text is read into a `Value`.
-/

namespace TableGrid.CommandLine

/-- What kind of value an argument stands for. -/
inductive Kind where
  /-- The name of a file, which is not empty. -/
  | file
  | text
  | index
  | direction
deriving DecidableEq, Repr

/-- The value of an argument. -/
inductive Value where
  | file (path : String)
  | text (text : String)
  | index (index : Nat)
  | direction (direction : Direction)
deriving DecidableEq, Repr

/-- Read a value, or say why the text stands for none. -/
def Kind.read (kind : Kind) (text : String) : Except String Value :=
  match kind with
  | file => if text.isEmpty then .error "a value is required" else .ok (.file text)
  | Kind.text => .ok (.text text)
  | index =>
    match Text.readUnsigned Text.maxWord text.toList with
    | .ok n => .ok (.index n)
    | .error fault => .error fault.message
  | direction =>
    match Direction.ofName? text with
    | some d => .ok (.direction d)
    | none => .error (Direction.unknownMessage text)

namespace Value

/-- The file that a value names. -/
def file? : Value → Option String
  | file path => some path
  | _ => none

/-- The index that a value is. -/
def index? : Value → Option Nat
  | index i => some i
  | _ => none

/-- The direction that a value is. -/
def direction? : Value → Option Direction
  | direction d => some d
  | _ => none

end Value

end TableGrid.CommandLine
