import TableGrid.CommandLine.Value

/-! # Syntax of command lines

A `Form` describes one command: its name, its positional arguments and its options.
`Form.scan` splits the arguments of a command by its form, and `Form.help` describes it.

Arguments that start with a dash are options, up to a lone `--`, behind which all arguments
are positional.  A lone dash is no option.  The value of an option follows it, or is attached
to it as in `--at=1`, `-oname` or `-o=name`.  No option may be given twice.

Arguments are taken one after another, and each value is read as soon as it is met.  The first
fault ends the scan, and so does the first request for help: help is given only where all in
front of it is right.
-/

namespace TableGrid.CommandLine

/-- How often a positional argument is given. -/
inductive Arity where
  | one
  | atMostOne
  | atLeastOne
  | any
deriving DecidableEq, Repr

/-- Whether an argument may be given again. -/
def Arity.repeats : Arity → Bool
  | one | atMostOne => false
  | atLeastOne | any => true

/-- A positional argument. -/
structure Positional where
  name : String
  help : String
  kind : Kind
  arity : Arity := .one

/-- An option. -/
structure Switch where
  long : String
  short : Option Char := none
  /-- The name and the kind of the option's value, if it takes one. -/
  value : Option (String × Kind) := none
  help : String

/-- A command. -/
structure Form where
  name : String
  aliases : List String := []
  about : String
  positionals : List Positional
  switches : List Switch := []
  /-- Whether the command has an option that asks for its help. -/
  offersHelp : Bool := true

/-- Arguments split by a form. -/
structure Arguments where
  positionals : List Value := []
  /-- The options given, with their values. -/
  switches : List (String × Option Value) := []

/-- Why a command line is not carried out. -/
inductive UsageStop where
  | invalid (message : String)
  /-- Help was asked for. -/
  | help

/-- Read the value of an argument. -/
def readValue (kind : Kind) (text : String) : Except UsageStop Value :=
  (kind.read text).mapError fun cause =>
    .invalid ("invalid value '" ++ text ++ "': " ++ cause)

namespace Form

/-! ### Positional arguments -/

/-- Take up an argument as the first of those that are still expected; one that repeats is
    expected again. -/
def fill (expected : List Positional) (arguments : Arguments) (text : String) :
    Except UsageStop (List Positional × Arguments) :=
  match expected with
  | [] => .error (.invalid ("unexpected argument '" ++ text ++ "'"))
  | p :: rest => do
    let value ← readValue p.kind text
    return (if p.arity.repeats then p :: rest else rest,
      { arguments with positionals := arguments.positionals ++ [value] })

/-- Take up arguments that are all positional. -/
def fillAll (expected : List Positional) (arguments : Arguments) :
    List String → Except UsageStop Arguments
  | [] => .ok arguments
  | text :: rest => do
    let (expected, arguments) ← fill expected arguments text
    fillAll expected arguments rest

/-! ### Options -/

/-- Take up an option, unless it was given before. -/
def record (arguments : Arguments) (switch : Switch) (value : Option Value) :
    Except UsageStop Arguments :=
  if arguments.switches.any (·.1 == switch.long) then
    .error (.invalid ("the option '--" ++ switch.long ++ "' is given twice"))
  else .ok { arguments with switches := arguments.switches ++ [(switch.long, value)] }

/-- Take up an option with its value. -/
def recordValue (arguments : Arguments) (switch : Switch) (kind : Kind) (text : String) :
    Except UsageStop Arguments := do
  record arguments switch (some (← readValue kind text))

/-- Whether an argument can stand for the value of an option in front of it. -/
def isValue (argument : String) : Bool :=
  argument == "-" || !argument.startsWith "-"

/-- What an argument asks for. -/
inductive Token where
  | positional (text : String)
  /-- A lone `--`. -/
  | terminator
  | help
  /-- An option, with the value attached to it. -/
  | switch (switch : Switch) (attached : Option String)
  | unknown

/-- The text in front of the first `=`, and the text behind it. -/
def splitValue (s : List Char) : List Char × Option String :=
  match s.span (· != '=') with
  | (name, []) => (name, none)
  | (name, _ :: value) => (name, some (String.ofList value))

/-- The value attached to the letter of an option. -/
def attachedValue : List Char → Option String
  | [] => none
  | '=' :: value => some (String.ofList value)
  | value => some (String.ofList value)

/-- Classify an argument. -/
def token (form : Form) (argument : String) : Token :=
  match argument.toList with
  | ['-', '-'] => .terminator
  | '-' :: '-' :: rest =>
    let (name, attached) := splitValue rest
    if String.ofList name = "help" && attached.isNone then .help
    else
      match form.switches.find? (·.long == String.ofList name) with
      | some switch => .switch switch attached
      | none => .unknown
  | ['-'] => .positional argument
  | '-' :: c :: rest =>
    if c = 'h' then .help
    else
      match form.switches.find? (·.short == some c) with
      | some switch => .switch switch (attachedValue rest)
      | none => .unknown
  | _ => .positional argument

/-! ### All arguments -/

/-- Split arguments while the given positional ones are still expected. -/
def scanFrom (form : Form) (expected : List Positional) (arguments : Arguments) :
    List String → Except UsageStop Arguments
  | [] => .ok arguments
  | argument :: rest =>
    match form.token argument with
    | .positional text => do
      let (expected, arguments) ← fill expected arguments text
      form.scanFrom expected arguments rest
    | .terminator => fillAll expected arguments rest
    | .help => .error .help
    | .unknown => .error (.invalid ("unexpected argument '" ++ argument ++ "'"))
    | .switch switch attached =>
      match switch.value, attached, rest with
      | none, none, rest => do form.scanFrom expected (← record arguments switch none) rest
      | none, some _, _ => .error (.invalid ("'--" ++ switch.long ++ "' takes no value"))
      | some (_, kind), some text, rest => do
        form.scanFrom expected (← recordValue arguments switch kind text) rest
      | some (_, kind), none, text :: rest =>
        if isValue text then do
          form.scanFrom expected (← recordValue arguments switch kind text) rest
        else .error (.invalid ("'--" ++ switch.long ++ "' needs a value"))
      | some _, none, [] => .error (.invalid ("'--" ++ switch.long ++ "' needs a value"))

/-- Split the arguments of a command.  Arguments that are missing are left to the command. -/
def scan (form : Form) (arguments : List String) : Except UsageStop Arguments :=
  form.scanFrom form.positionals {} arguments

/-! ### Help -/

/-- A positional argument in a usage line. -/
def usageOf (p : Positional) : String :=
  match p.arity with
  | .one => "<" ++ p.name ++ ">"
  | .atMostOne => "[" ++ p.name ++ "]"
  | .atLeastOne => "<" ++ p.name ++ ">..."
  | .any => "[" ++ p.name ++ "]..."

/-- The left column of an option's help. -/
def switchHead (s : Switch) : String :=
  let short := match s.short with
    | some c => "-" ++ String.singleton c ++ ", "
    | none => "    "
  let value := match s.value with
    | some (name, _) => " <" ++ name ++ ">"
    | none => ""
  short ++ "--" ++ s.long ++ value

/-- Two columns, the left one as wide as its longest text. -/
def columns (entries : List (String × String)) : String :=
  let width := entries.foldl (fun width entry => max width entry.1.length) 0
  String.join <| entries.map fun (head, text) =>
    "  " ++ head ++ String.ofList (List.replicate (width - head.length) ' ') ++ "  " ++ text ++ "\n"

/-- A titled section of help, left out when it is empty. -/
def helpSection (title : String) (entries : List (String × String)) : String :=
  if entries.isEmpty then "" else "\n" ++ title ++ ":\n" ++ columns entries

/-- The option that asks for help. -/
def helpSwitch : Switch := { long := "help", short := some 'h', help := "Print help" }

/-- All options of a command. -/
def allSwitches (form : Form) : List Switch :=
  form.switches ++ if form.offersHelp then [helpSwitch] else []

/-- The help of a command of the given program. -/
def help (program : String) (form : Form) : String :=
  let options := if form.switches.isEmpty then "" else " [OPTIONS]"
  let arguments := String.join (form.positionals.map fun p => " " ++ usageOf p)
  form.about ++ "\n\nUsage: " ++ program ++ " " ++ form.name ++ options ++ arguments ++ "\n" ++
    helpSection "Arguments" (form.positionals.map fun p => (usageOf p, p.help)) ++
    helpSection "Options" (form.allSwitches.map fun s => (switchHead s, s.help))

end Form

end TableGrid.CommandLine
