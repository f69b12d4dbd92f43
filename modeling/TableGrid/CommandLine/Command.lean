import TableGrid.CommandLine.Form

/-! # Commands

The commands of the program, their forms, and the reading of a command line.
-/

namespace TableGrid.CommandLine

/-- The name of the program, for its help. -/
def programName : String := "cellgrid"

/-- The version of the program. -/
def programVersion : String := "0.1.0"

/-- A kind of change of shape. -/
inductive ShapeChange where
  | addRow
  | removeRow
  | addColumn
  | removeColumn
deriving DecidableEq, Repr

/-- What the program is asked to do. -/
inductive Command where
  | render (input : String) (overlay : Option String) (json placeholder : Bool)
  | style (input address : String)
  | navigate (input start : String) (moves : List Direction)
  | address (value : String) (col : Option Nat)
  | set (input address content : String) (output : Option String)
  | reshape (change : ShapeChange) (input : String) (index : Option Nat) (output : Option String)
deriving Repr

/-- What a command line stands for. -/
inductive Request where
  | command (command : Command)
  /-- A text to print. -/
  | print (text : String)
  /-- A command line that is not understood. -/
  | invalid (message : String)

/-! ### Forms -/

/-- The argument that names the table. -/
def inputArgument : Positional := ⟨"INPUT", "Table declaration (JSON)", .file, .one⟩

/-- The option that names the file to write. -/
def outputSwitch : Switch where
  long := "output"
  short := some 'o'
  value := some ("OUTPUT", .file)
  help := "Output declaration file (default: stdout)"

/-- The form of a command that changes the shape. -/
def reshapeForm (name about : String) : Form where
  name := name
  about := about
  positionals := [inputArgument]
  switches :=
    [{ long := "at", value := some ("AT", .index), help := "Zero-based row or column index" },
      outputSwitch]

/-- The form of `render`. -/
def renderForm : Form where
  name := "render"
  about := "Print the resolved cell matrix"
  positionals := [inputArgument]
  switches := [
    { long := "overlay", value := some ("OVERLAY", .file),
      help := "Local overlay to layer on top (JSON object of address -> cell)" },
    { long := "json", help := "Print the matrix as JSON instead of a text grid" },
    { long := "placeholder", help := "Give empty cells a placeholder size" }]

/-- The form of `style`. -/
def styleForm : Form where
  name := "style"
  about := "Show the effective style of a cell with its row and column styles"
  positionals := [inputArgument, ⟨"ADDRESS", "Cell address, e.g. B3", .text, .one⟩]

/-- The form of `navigate`. -/
def navigateForm : Form where
  name := "navigate"
  about := "Walk the grid from a cell and print every landing cell"
  positionals := [inputArgument, ⟨"FROM", "Starting cell address", .text, .one⟩,
    ⟨"MOVES", "Moves to make: up, down, left or right", .direction, .atLeastOne⟩]

/-- The form of `address`. -/
def addressForm : Form where
  name := "address"
  aliases := ["addr"]
  about := "Convert between A1 addresses and zero-based indices"
  positionals := [⟨"VALUE", "An A1 address, or a row index when COL is given", .text, .one⟩,
    ⟨"COL", "Zero-based column index", .index, .atMostOne⟩]

/-- The form of `set`. -/
def setForm : Form where
  name := "set"
  about := "Set the text content of a cell"
  positionals :=
    [⟨"INPUT", "", .file, .one⟩, ⟨"ADDRESS", "", .text, .one⟩, ⟨"CONTENT", "", .text, .one⟩]
  switches := [outputSwitch]

/-- The form of `add-row`. -/
def addRowForm : Form := reshapeForm "add-row" "Insert a row before AT (default: append)"

/-- The form of `remove-row`. -/
def removeRowForm : Form := reshapeForm "remove-row" "Remove row AT (default: the last row)"

/-- The form of `add-column`. -/
def addColumnForm : Form := reshapeForm "add-column" "Insert a column before AT (default: append)"

/-- The form of `remove-column`. -/
def removeColumnForm : Form :=
  reshapeForm "remove-column" "Remove column AT (default: the last column)"

/-- The form of `help`. -/
def helpForm : Form where
  name := "help"
  about := "Print this message or the help of the given subcommand(s)"
  positionals := [⟨"COMMAND", "Print help for the subcommand(s)", .text, .any⟩]
  offersHelp := false

/-! ### Reading arguments -/

/-- The value of an option, if it is given. -/
def Arguments.value? (a : Arguments) (long : String) : Option Value :=
  (a.switches.lookup long).join

/-- Whether an option is given. -/
def Arguments.has (a : Arguments) (long : String) : Bool := a.switches.any (·.1 == long)

/-- The file that an option names. -/
def Arguments.file? (a : Arguments) (long : String) : Option String :=
  (a.value? long).bind Value.file?

/-- How a command is made of its arguments; `none` when arguments are missing. -/
abbrev Reader := Arguments → Option Command

/-- Read the arguments of `render`. -/
def readRender : Reader := fun a =>
  match a.positionals with
  | [.file input] => some (.render input (a.file? "overlay") (a.has "json") (a.has "placeholder"))
  | _ => none

/-- Read the arguments of `style`. -/
def readStyle : Reader := fun a =>
  match a.positionals with
  | [.file input, .text address] => some (.style input address)
  | _ => none

/-- Read the arguments of `navigate`. -/
def readNavigate : Reader := fun a =>
  match a.positionals with
  | .file input :: .text start :: move :: moves =>
    ((move :: moves).mapM Value.direction?).map (.navigate input start)
  | _ => none

/-- Read the arguments of `address`. -/
def readAddress : Reader := fun a =>
  match a.positionals with
  | [.text value] => some (.address value none)
  | [.text value, .index col] => some (.address value (some col))
  | _ => none

/-- Read the arguments of `set`. -/
def readSet : Reader := fun a =>
  match a.positionals with
  | [.file input, .text address, .text content] =>
    some (.set input address content (a.file? "output"))
  | _ => none

/-- Read the arguments of a command that changes the shape. -/
def readReshape (change : ShapeChange) : Reader := fun a =>
  match a.positionals with
  | [.file input] =>
    some (.reshape change input ((a.value? "at").bind Value.index?) (a.file? "output"))
  | _ => none

/-- All commands. -/
def commands : List (Form × Reader) := [
  (renderForm, readRender),
  (styleForm, readStyle),
  (navigateForm, readNavigate),
  (addressForm, readAddress),
  (setForm, readSet),
  (addRowForm, readReshape .addRow),
  (removeRowForm, readReshape .removeRow),
  (addColumnForm, readReshape .addColumn),
  (removeColumnForm, readReshape .removeColumn)]

/-- The command of a name. -/
def findCommand? (name : String) : Option (Form × Reader) :=
  commands.find? fun (form, _) => form.name == name || form.aliases.contains name

/-- The help of the program. -/
def programHelp : String :=
  "Table declaration inspection and editing tool\n\nUsage: " ++ programName ++ " <COMMAND>\n" ++
    Form.helpSection "Commands"
      (commands.map (fun (form, _) => (form.name, form.about)) ++
        [(helpForm.name, helpForm.about)]) ++
    Form.helpSection "Options" [("-h, --help", "Print help"), ("-V, --version", "Print version")]

/-- The name and the version of the program. -/
def versionLine : String := programName ++ " " ++ programVersion ++ "\n"

/-- Ask for the help of a command. -/
def Request.ofHelp : List String → Request
  | [] => .print programHelp
  | [name] =>
    if name = helpForm.name then .print (helpForm.help programName)
    else
      match findCommand? name with
      | some (form, _) => .print (form.help programName)
      | none => .invalid ("unrecognized subcommand '" ++ name ++ "'")
  | _ :: name :: _ => .invalid ("unrecognized subcommand '" ++ name ++ "'")

/-- Ask for a command by its name. -/
def Request.ofCommand (name : String) (arguments : List String) : Request :=
  match findCommand? name with
  | none => .invalid ("unrecognized subcommand '" ++ name ++ "'")
  | some (form, read) =>
    match form.scan arguments with
    | .ok a =>
      match read a with
      | some c => .command c
      | none => .invalid "arguments are missing"
    | .error .help => .print (form.help programName)
    | .error (.invalid message) => .invalid message

/-- Read a command line.  In front of the command an option of the program may stand, which
    ends the matter: of several letters behind one dash the first one counts. -/
def Request.ofArguments : List String → Request
  | [] => .invalid programHelp
  | "help" :: rest => .ofHelp rest
  | "--help" :: _ => .print programHelp
  | "--version" :: _ => .print versionLine
  | first :: rest =>
    match first.toList with
    | '-' :: 'h' :: _ => .print programHelp
    | '-' :: 'V' :: _ => .print versionLine
    | _ => .ofCommand first rest

end TableGrid.CommandLine
