import Std.Data.ExtTreeMap

/-! # Files

The program reads and writes whole files.  `Files` is what it needs of a file system, in any
monad; `Directory` is a file system seen from its working directory.

A path is followed step by step.  All steps but the last one have to lead into directories: `.`
stays, `..` goes up, and a name has to be the name of a directory.  A slash at the end asks for
a directory too.

* `Directory.follow`                       where a path leads
* `Directory.read`, `Directory.write`      what is there, and putting something there
-/

namespace TableGrid.CommandLine

/-- Why a file cannot be read or written. -/
inductive FileFault where
  | notFound
  | isDirectory
  | notDirectory
  | nameTooLong
  | other (message : String)
deriving DecidableEq, Repr

/-- The wording of a fault. -/
def FileFault.message : FileFault → String
  | notFound => "No such file or directory (os error 2)"
  | notDirectory => "Not a directory (os error 20)"
  | isDirectory => "Is a directory (os error 21)"
  | nameTooLong => "File name too long (os error 36)"
  | other message => message

/-- Access to files by name. -/
structure Files (m : Type → Type) where
  read : String → m (Except FileFault String)
  write : String → String → m (Except FileFault Unit)

/-! ### Paths -/

/-- The most bytes that a name may have. -/
def maxNameSize : Nat := 255

/-- The most bytes that a path may have. -/
def maxPathSize : Nat := 4095

/-- Whether a name is too long. -/
def isLongName (name : String) : Bool := maxNameSize < name.utf8ByteSize

/-- The steps of a path; slashes in a row count as one. -/
def pathSteps (path : String) : List String :=
  ((path.toList.splitOn '/').filter (!·.isEmpty)).map String.ofList

/-- A directory that a path leads through. -/
inductive Place where
  /-- The working directory or one below it, by the names that lead there. -/
  | below (names : List String)
  /-- A directory above the working directory, about which nothing is known. -/
  | above
  /-- A directory by the names that lead there from the root. -/
  | absolute (names : List String)
deriving DecidableEq, Repr

/-- The directory above a directory; the root is above itself. -/
def Place.parent : Place → Place
  | below [] => above
  | below names => below names.dropLast
  | above => above
  | absolute names => absolute names.dropLast

/-- What a name stands for in a directory. -/
inductive Node where
  | directory (place : Place)
  | file (text : String)
deriving DecidableEq, Repr

/-- Where a path leads. -/
inductive Target where
  | directory
  /-- To a name in a directory, which need not be in use. -/
  | name (place : Place) (name : String)
deriving DecidableEq, Repr

/-- A directory with its files, by their paths from there. -/
structure Directory where
  files : Std.ExtTreeMap String String := ∅

namespace Directory

/-- The directories at the root of a system. -/
def systemDirectories : List String :=
  ["bin", "boot", "dev", "etc", "home", "lib", "media", "mnt", "opt", "proc", "root", "run",
    "sbin", "srv", "sys", "tmp", "usr", "var"]

/-- What a name stands for.  Outside the working directory only the directories at the root and
    the null device are known. -/
def look (d : Directory) (place : Place) (name : String) : Option Node :=
  match place with
  | .below names =>
    let path := "/".intercalate (names ++ [name])
    match d.files[path]? with
    | some text => some (.file text)
    | none =>
      if d.files.keys.any (·.startsWith (path ++ "/")) then
        some (.directory (.below (names ++ [name])))
      else none
  | .above => none
  | .absolute [] =>
    if systemDirectories.contains name then some (.directory (.absolute [name])) else none
  | .absolute names => if names = ["dev"] ∧ name = "null" then some (.file "") else none

/-- Take a step that is not the last one. -/
def step (d : Directory) (place : Place) (name : String) : Except FileFault Place :=
  if name = "." then .ok place
  else if name = ".." then .ok place.parent
  else if isLongName name then .error .nameTooLong
  else
    match d.look place name with
    | none => .error .notFound
    | some (.file _) => .error .notDirectory
    | some (.directory next) => .ok next

/-- Follow steps from a directory on. -/
def follow (d : Directory) (place : Place) : List String → Except FileFault Target
  | [] => .ok .directory
  | [name] => .ok (if name = "." ∨ name = ".." then .directory else .name place name)
  | name :: names => do d.follow (← d.step place name) names

/-- Follow a path. -/
def resolve (d : Directory) (path : String) : Except FileFault Target :=
  if path.isEmpty then .error .notFound
  else if maxPathSize < path.utf8ByteSize then .error .nameTooLong
  else d.follow (if path.startsWith "/" then .absolute [] else .below []) (pathSteps path)

/-- Read a file. -/
def read (d : Directory) (path : String) : Except FileFault String := do
  match ← d.resolve path with
  | .directory => .error .isDirectory
  | .name place name =>
    if isLongName name then .error .nameTooLong
    else
      match d.look place name with
      | none => .error .notFound
      | some (.directory _) => .error .isDirectory
      | some (.file text) => if path.endsWith "/" then .error .notDirectory else .ok text

/-- Write a file.  What is written outside the working directory does not show. -/
def write (d : Directory) (path text : String) : Except FileFault Directory := do
  match ← d.resolve path with
  | .directory => .error .isDirectory
  | .name place name =>
    if path.endsWith "/" then .error .isDirectory
    else if isLongName name then .error .nameTooLong
    else
      match d.look place name, place with
      | some (.directory _), _ => .error .isDirectory
      | _, .below names => return ⟨d.files.insert ("/".intercalate (names ++ [name])) text⟩
      | _, _ => return d

/-- Access to the files of a directory. -/
def access : Files (StateM Directory) where
  read path := fun d => (d.read path, d)
  write path text := fun d =>
    match d.write path text with
    | .ok d' => (.ok (), d')
    | .error fault => (.error fault, d)

end Directory

end TableGrid.CommandLine
