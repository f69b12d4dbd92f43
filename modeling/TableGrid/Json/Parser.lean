import TableGrid.Json.Token

/-! # Reading JSON

`Json.parse?` reads a text of exactly one value, blanks around it allowed.  It refuses arrays
and objects nested deeper than `maxDepth`, and all numbers and strings without a value.

Not every reader wants all of a text.  A `Shape` says which members of which objects nobody
looks at.  `Json.parseAs?` leaves them out: they have to be well formed, but they may be nested
to any depth and hold numbers and strings without a value.

Each reading function takes the characters still to come and returns what it read with
the characters after it.  It recurses on a count that starts above twice the length of the
text.  Of two calls in a row at least one consumes a character, so the count never runs out.
-/

namespace TableGrid.Json

/-- Arrays and objects may be nested this deep. -/
def maxDepth : Nat := 127

/-! ### Shapes -/

/-- What is read of a value.  A value of another form than the shape foresees is read whole. -/
inductive Shape where
  /-- All of it. -/
  | whole
  /-- An array, of whose items all the same is read. -/
  | items (item : Shape)
  /-- An object with fields.  Members under other names are read or skipped. -/
  | record (fields : List (String × Shape)) (readsOthers : Bool)

namespace Shape

/-- What is read of the items of an array. -/
def item : Shape → Shape
  | items shape => shape
  | whole | record _ _ => whole

/-- What is read of a member, or `none` when it is skipped. -/
def member? (shape : Shape) (name : String) : Option Shape :=
  match shape with
  | record fields readsOthers =>
    match fields.lookup name with
    | some field => some field
    | none => if readsOthers then some whole else none
  | whole | items _ => some whole

end Shape

/-! ### Skipping -/

/-- A bracket that is still open. -/
inductive Bracket where
  | square
  | curly
deriving DecidableEq, Repr

/-- Skip the name of a member and the colon behind it; blanks may stand before it. -/
def skipName (s : List Char) : Option (List Char) :=
  match skipSpace s with
  | '"' :: t =>
    match (skipString t).map skipSpace with
    | some (':' :: rest) => some rest
    | _ => none
  | _ => none

/-- Skip a value that has no parts. -/
def skipScalar (s : List Char) : Option (List Char) :=
  match s with
  | 'n' :: t => dropWord? ['u', 'l', 'l'] t
  | 't' :: t => dropWord? ['r', 'u', 'e'] t
  | 'f' :: t => dropWord? ['a', 'l', 's', 'e'] t
  | '"' :: t => skipString t
  | t => (scanNumeral t).map (·.2)

mutual

/-- Skip a value inside the given open brackets, and all up to their ends. -/
def skipValue (fuel : Nat) (opened : List Bracket) (s : List Char) : Option (List Char) :=
  match fuel with
  | 0 => none
  | fuel + 1 =>
    match skipSpace s with
    | '[' :: t =>
      match skipSpace t with
      | ']' :: rest => skipBehind fuel opened rest
      | t => skipValue fuel (.square :: opened) t
    | '\x7b' :: t =>
      match skipSpace t with
      | '\x7d' :: rest => skipBehind fuel opened rest
      | t =>
        match skipName t with
        | some rest => skipValue fuel (.curly :: opened) rest
        | none => none
    | t =>
      match skipScalar t with
      | some rest => skipBehind fuel opened rest
      | none => none

/-- Behind a value, skip all up to the ends of the given open brackets. -/
def skipBehind (fuel : Nat) (opened : List Bracket) (s : List Char) : Option (List Char) :=
  match fuel, opened with
  | _, [] => some s
  | 0, _ => none
  | fuel + 1, bracket :: outer =>
    match bracket, skipSpace s with
    | .square, ',' :: t => skipValue fuel (.square :: outer) t
    | .square, ']' :: rest => skipBehind fuel outer rest
    | .curly, ',' :: t =>
      match skipName t with
      | some rest => skipValue fuel (.curly :: outer) rest
      | none => none
    | .curly, '\x7d' :: rest => skipBehind fuel outer rest
    | _, _ => none

end

/-! ### Values -/

mutual

/-- Read a value; blanks may stand before it. -/
def readValue (fuel depth : Nat) (shape : Shape) (s : List Char) : Option (Json × List Char) :=
  match fuel with
  | 0 => none
  | fuel + 1 =>
    match skipSpace s with
    | 'n' :: t => (dropWord? ['u', 'l', 'l'] t).map (.null, ·)
    | 't' :: t => (dropWord? ['r', 'u', 'e'] t).map (.bool true, ·)
    | 'f' :: t => (dropWord? ['a', 'l', 's', 'e'] t).map (.bool false, ·)
    | '"' :: t => (readString t).map fun (text, rest) => (.string (String.ofList text), rest)
    | '[' :: t =>
      match depth with
      | 0 => none
      | depth + 1 =>
        match skipSpace t with
        | ']' :: rest => some (.array [], rest)
        | t => (readItems fuel depth shape.item t).map fun (items, rest) => (.array items, rest)
    | '\x7b' :: t =>
      match depth with
      | 0 => none
      | depth + 1 =>
        match skipSpace t with
        | '\x7d' :: rest => some (.object [], rest)
        | t => (readMembers fuel depth shape t).map fun (members, rest) => (.object members, rest)
    | t => do
      let (numeral, rest) ← scanNumeral t
      return (.number (← numeral.value?), rest)

/-- Read the items of an array up to its closing bracket; there is at least one. -/
def readItems (fuel depth : Nat) (shape : Shape) (s : List Char) :
    Option (List Json × List Char) :=
  match fuel with
  | 0 => none
  | fuel + 1 => do
    let (item, s) ← readValue fuel depth shape s
    match skipSpace s with
    | ',' :: t =>
      let (items, rest) ← readItems fuel depth shape t
      return (item :: items, rest)
    | ']' :: rest => return ([item], rest)
    | _ => none

/-- Read the members of an object of the given shape up to its closing brace; there is at least
    one. -/
def readMembers (fuel depth : Nat) (shape : Shape) (s : List Char) :
    Option (List (String × Json) × List Char) :=
  match fuel with
  | 0 => none
  | fuel + 1 =>
    match skipSpace s with
    | '"' :: t => do
      let (text, t) ← readString t
      let name := String.ofList text
      match skipSpace t with
      | ':' :: t =>
        let (member, t) ← match shape.member? name with
          | some shape => (readValue fuel depth shape t).map fun (value, t) => ([(name, value)], t)
          | none => (skipValue fuel [] t).map ([], ·)
        match skipSpace t with
        | ',' :: t =>
          let (members, rest) ← readMembers fuel depth shape t
          return (member ++ members, rest)
        | '\x7d' :: rest => return (member, rest)
        | _ => none
      | _ => none
    | _ => none

end

/-- The value of a JSON text as far as the shape wants it, or `none` when the text is not the
    text of one such value. -/
def parseAs? (shape : Shape) (text : String) : Option Json :=
  let s := text.toList
  match readValue (2 * s.length + 2) maxDepth shape s with
  | some (value, rest) => if (skipSpace rest).isEmpty then some value else none
  | none => none

/-- The value of a JSON text, or `none` when the text is not the text of one value. -/
def parse? (text : String) : Option Json := parseAs? .whole text

end TableGrid.Json
