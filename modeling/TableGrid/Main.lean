import TableGrid.CommandLine.Run

/-! # The program -/

namespace TableGrid.CommandLine

/-- The number and the wording of an error of the system. -/
def systemError? : IO.Error → Option (UInt32 × String)
  | .otherError code details | .resourceBusy code details | .resourceVanished code details
  | .unsupportedOperation code details | .hardwareFault code details
  | .unsatisfiedConstraints code details | .illegalOperation code details
  | .protocolError code details | .timeExpired code details
  | .alreadyExists _ code details | .interrupted _ code details
  | .noFileOrDirectory _ code details | .invalidArgument _ code details
  | .permissionDenied _ code details | .resourceExhausted _ code details
  | .inappropriateType _ code details | .noSuchThing _ code details => some (code, details)
  | .unexpectedEof | .userError _ => none

/-- The number of an error, which some calls hand out with its sign turned. -/
def errorNumber (code : UInt32) : Nat :=
  if Nat.pow 2 31 ≤ code.toNat then Nat.pow 2 32 - code.toNat else code.toNat

/-- What went wrong with a file. -/
def FileFault.ofError (error : IO.Error) : FileFault :=
  match systemError? error with
  | none => .other (toString error)
  | some (code, details) =>
    match errorNumber code with
    | 2 => .notFound
    | 20 => .notDirectory
    | 21 => .isDirectory
    | 36 => .nameTooLong
    | n => .other (details ++ " (os error " ++ Text.showNat n ++ ")")

/-- The files of the machine. -/
def machineFiles : Files IO where
  read path := do
    try
      match String.fromUTF8? (← IO.FS.readBinFile path) with
      | some text => return .ok text
      | none => return .error (.other "stream did not contain valid UTF-8")
    catch error => return .error (.ofError error)
  write path text := do
    try
      IO.FS.writeFile path text
      return .ok ()
    catch error => return .error (.ofError error)

end TableGrid.CommandLine

/-- Carry out the command line that the program is started with. -/
def main (arguments : List String) : IO UInt32 := do
  let report ← TableGrid.CommandLine.run TableGrid.CommandLine.machineFiles arguments
  IO.print report.out
  IO.eprint report.err
  return report.exit.toUInt32
