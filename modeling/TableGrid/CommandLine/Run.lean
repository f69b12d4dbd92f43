import TableGrid.CommandLine.Command
import TableGrid.CommandLine.Files
import TableGrid.Engine.Attribute
import TableGrid.Engine.Edit
import TableGrid.Engine.Reshape
import TableGrid.Grid.Json
import TableGrid.Table.Json

/-! # Running commands

`run` carries out a command line with access to files in any monad.  What it prints is
collected, and what it was able to print before a failure stays printed.  A failure is shown
with all of its causes, outermost first.
-/

namespace TableGrid.CommandLine

/-- What was printed. -/
structure Transcript where
  out : String := ""
  err : String := ""
deriving DecidableEq, Repr

/-- The end of a run. -/
structure Report where
  exit : Nat
  out : String
  err : String
deriving DecidableEq, Repr

/-- Why a command failed, outermost first. -/
structure Failure where
  message : String
  causes : List String
deriving DecidableEq, Repr

namespace Failure

/-- Break a cause into lines, all but the first indented by a number of blanks. -/
def indented (blanks : Nat) (text : String) : String :=
  String.ofList <| text.toList.flatMap fun c =>
    if c = '\n' then '\n' :: List.replicate blanks ' ' else [c]

/-- The numbered lines of several causes. -/
def numbered (causes : List String) : String :=
  String.join <| causes.zipIdx.map fun (cause, i) =>
    let number := Text.showNat i
    String.ofList (List.replicate (5 - number.length) ' ') ++ number ++ ": " ++
      indented 7 cause ++ "\n"

/-- The text of a failure with its causes. -/
def text (f : Failure) : String :=
  "Error: " ++ f.message ++ "\n" ++
    match f.causes with
    | [] => ""
    | [cause] => "\nCaused by:\n    " ++ indented 4 cause ++ "\n"
    | causes => "\nCaused by:\n" ++ numbered causes

/-- The failure of an operation of the engine. -/
def ofEngine (e : EngineError) : Failure := ⟨e.message, e.causeMessage?.toList⟩

/-- What was attempted when something failed. -/
def within (context : String) (f : Failure) : Failure := ⟨context, f.message :: f.causes⟩

end Failure

/-- A program that prints and may fail. -/
abbrev Program (m : Type → Type) := ExceptT Failure (StateT Transcript m)

variable {m : Type → Type} [Monad m] {α : Type}

/-- Print a line to the standard output. -/
def printLine (text : String) : Program m Unit :=
  modify fun t => { t with out := t.out ++ text ++ "\n" }

/-- Print a line to the standard error. -/
def noteLine (text : String) : Program m Unit :=
  modify fun t => { t with err := t.err ++ text ++ "\n" }

/-- Say what failed around a failure. -/
def orFailWith (context : String) : Except Failure α → Program m α
  | .ok value => pure value
  | .error f => throw (f.within context)

/-- A name in quotes. -/
def quoted (text : String) : String := "'" ++ text ++ "'"

/-- Read a file. -/
def readFile (files : Files m) (path : String) : Program m String := do
  match ← (files.read path : m _) with
  | .ok text => return text
  | .error fault => throw ⟨"Failed to read " ++ quoted path, [fault.message]⟩

/-- Read a table from a file. -/
def loadTable (files : Files m) (path : String) : Program m Table := do
  match Table.parse (← readFile files path) with
  | .ok t => return t
  | .error cause => throw ⟨"Failed to parse " ++ quoted path, [cause.message]⟩

/-- Read a table and open it. -/
def openTable (files : Files m) (path : String) (options : Options) :
    Program m (Engine Table) := do
  let t ← loadTable files path
  return .opened t t options

/-- Carry out an operation of the engine. -/
def perform (action : Action Table α) (e : Engine Table) : Except Failure (α × Engine Table) :=
  match action e with
  | .ok value e => .ok (value, e)
  | .error (.failed error) _ => .error (.ofEngine error)
  | .error .abandoned _ => .error ⟨"The document did not answer", []⟩

/-- The value of a result, or its failure. -/
def succeed : Except Failure α → Program m α
  | .ok value => pure value
  | .error f => throw f

/-- Write a table to a file, or print it. -/
def writeTable (files : Files m) (t : Table) (output : Option String) : Program m Unit := do
  match output with
  | none => printLine t.print
  | some path =>
    match ← (files.write path t.print : m _) with
    | .ok () => noteLine ("Wrote " ++ quoted path)
    | .error fault => throw ⟨"Failed to write " ++ quoted path, [fault.message]⟩

/-- Read an address. -/
def readCoord (text : String) : Program m Coord :=
  match Coord.ofAddress? text with
  | .ok p => pure p
  | .error fault =>
    throw ⟨"Invalid address " ++ quoted text, [(TableError.invalidAddress fault).message]⟩

/-! ### Commands -/

/-- A cell in the text of a grid: its content on one line, or where it is covered from. -/
def cellText (cell : Cell) : String :=
  match cell.subsumedBy with
  | some owner => "<" ++ owner.address ++ ">"
  | none => cell.content.display.map fun c => if c = '\t' ∨ c = '\n' then ' ' else c

/-- The lines of a grid: the letters of the columns, then the rows with their numbers. -/
def gridLines (g : Grid) : List String :=
  let header := (List.range g.width).map fun col => String.ofList (Coord.columnLetters col)
  let rows := g.rows.toList.zipIdx.map fun (row, i) =>
    Text.showNat (i + 1) ++ "\t" ++ "\t".intercalate (row.toList.map cellText)
  ("\t" ++ "\t".intercalate header) :: rows

/-- Print the grid of a table. -/
def render (files : Files m) (input : String) (overlay : Option String)
    (json placeholder : Bool) : Program m Unit := do
  let e ← openTable files input { placeholder }
  let e ← match overlay with
    | none => pure e
    | some path =>
      match (Json.parse? (← readFile files path)).bind Overlay.ofJson? with
      | some o => pure (e.withOverlay o)
      | none => throw ⟨"Failed to parse overlay " ++ quoted path, ["the text is no overlay"]⟩
  let (grid, _) ← succeed (perform Engine.freshGrid e)
  if json then printLine grid.toJson.pretty
  else (gridLines grid).forM printLine

/-- Show the styles that meet in a cell. -/
def showStyle (files : Files m) (input address : String) : Program m Unit := do
  let e ← openTable files input {}
  let p ← readCoord address
  let (cell, _) ← succeed (perform (Engine.cellStyle p) e)
  let (row, _) ← succeed (perform (Engine.rowStyle p.row) e)
  let (column, _) ← succeed (perform (Engine.colStyle p.col) e)
  let (table, _) ← succeed (perform Engine.tableStyle e)
  printLine ("cell:   " ++ cell.css)
  printLine ("row:    " ++ row.css)
  printLine ("column: " ++ column.css)
  printLine ("table:  " ++ table.css)

/-- Move from cell to cell and print where each move ends. -/
def walk (e : Engine Table) : List Direction → Program m Unit
  | [] => pure ()
  | d :: ds => do
    let (target, e) ← succeed (perform (Engine.move d false) e)
    printLine (d.name ++ "\t" ++ target.address)
    walk e ds

/-- Walk the grid of a table from a cell. -/
def navigate (files : Files m) (input start : String) (moves : List Direction) :
    Program m Unit := do
  let e ← openTable files input {}
  let p ← readCoord start
  let (owner, e) ← orFailWith ("Cell " ++ start ++ " is outside the table")
    (perform (Engine.select p false) e)
  printLine ("start\t" ++ owner.address)
  walk e moves

/-- Convert between addresses and indices. -/
def convert (value : String) (col : Option Nat) : Program m Unit := do
  match col with
  | some col =>
    match Text.readUnsigned Text.maxWord value.toList with
    | .ok row => printLine (Coord.mk row col).address
    | .error fault => throw ⟨"Invalid row index " ++ quoted value, [fault.message]⟩
  | none =>
    let p ← readCoord value
    printLine (Text.showNat p.row ++ "\t" ++ Text.showNat p.col)

/-- Set the content of a cell. -/
def setContent (files : Files m) (input address content : String) (output : Option String) :
    Program m Unit := do
  let e ← openTable files input {}
  let p ← readCoord address
  let (outcome, e) ← succeed (perform (Engine.save Document.service p (.text content)) e)
  match outcome with
  | .applied persisted => noteLine (p.address ++ " = " ++ persisted.display)
  | .superseded => pure ()
  writeTable files e.store output

/-- The operation of a change of shape. -/
def ShapeChange.action (change : ShapeChange) (index : Option Nat) : Action Table Unit :=
  match change with
  | addRow => Engine.addRow Document.service index
  | removeRow => Engine.removeRow Document.service index
  | addColumn => Engine.addColumn Document.service index
  | removeColumn => Engine.removeColumn Document.service index

/-- Insert or remove a row or column. -/
def reshape (files : Files m) (change : ShapeChange) (input : String) (index : Option Nat)
    (output : Option String) : Program m Unit := do
  let e ← openTable files input {}
  let ((), e) ← succeed (perform (change.action index) e)
  let (grid, e) ← succeed (perform Engine.freshGrid e)
  noteLine ("Table is now " ++ Text.showNat grid.height ++ " rows x " ++
    Text.showNat grid.width ++ " columns")
  writeTable files e.store output

/-- Carry out a command. -/
def Command.program (files : Files m) (command : Command) : Program m Unit :=
  match command with
  | .render input overlay json placeholder =>
    CommandLine.render files input overlay json placeholder
  | .style input cell => showStyle files input cell
  | .navigate input start moves => CommandLine.navigate files input start moves
  | .address value col => convert value col
  | .set input cell content output => setContent files input cell content output
  | .reshape change input index output => CommandLine.reshape files change input index output

/-- Carry out a command line.  A failed command ends with 1, and a command line that is not
    understood with 2. -/
def run (files : Files m) (arguments : List String) : m Report := do
  match Request.ofArguments arguments with
  | .print text => return ⟨0, text, ""⟩
  | .invalid message => return ⟨2, "", message ++ "\n"⟩
  | .command command =>
    let (result, transcript) ← (command.program files).run.run {}
    match result with
    | .ok () => return ⟨0, transcript.out, transcript.err⟩
    | .error f => return ⟨1, transcript.out, transcript.err ++ f.text⟩

end TableGrid.CommandLine
