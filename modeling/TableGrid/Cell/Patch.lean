import TableGrid.Content
import TableGrid.Style.Attributes

/-! # Patches and entries

A `Patch` says what to write onto a cell: a content, spans, an identifier and attributes,
each of which may be absent and then leaves the cell as it is.  An `Entry` is a cell as a
table or an overlay writes it, either a bare content or a patch.

Patches are layered with `Patch.merge`; the later one wins field by field and attribute by
attribute.
-/

namespace TableGrid

/-- What to write onto a cell; absent fields leave it as it is. -/
structure Patch where
  content : Option Content := none
  colspan : Option UInt32 := none
  rowspan : Option UInt32 := none
  id : Option String := none
  attributes : Attributes := .empty
deriving DecidableEq

/-- The largest span. -/
def maxSpan : Nat := Nat.pow 2 32 - 1

/-- Read a span from a text; blanks around it are skipped. -/
def readSpan? (text : String) : Option UInt32 :=
  (Text.readUnsigned maxSpan (Text.trim text.toList)).toOption.map UInt32.ofNat

/-- The span that a JSON value stands for: a number or its text, and nothing for all else. -/
def spanOfJson? : Json → Option UInt32
  | .number n => (n.toNat? maxSpan).map UInt32.ofNat
  | .string s => readSpan? s
  | _ => none

/-- The JSON form of a span. -/
def spanToJson (span : UInt32) : Json := .number (.whole span.toNat)

namespace Patch

/-- The patch that changes nothing. -/
def empty : Patch := {}

/-- The patch that sets a content. -/
def ofContent (c : Content) : Patch := { content := some c }

/-- Both patches together, `upper` after `lower`. -/
def merge (lower upper : Patch) : Patch where
  content := upper.content.or lower.content
  colspan := upper.colspan.or lower.colspan
  rowspan := upper.rowspan.or lower.rowspan
  id := upper.id.or lower.id
  attributes := lower.attributes.merge upper.attributes

/-- Set anything by its name: the content, a span, the identifier or an attribute.  A span
    whose text is no number is cleared. -/
def setAttribute (p : Patch) (name text : String) : Patch :=
  if name = "cell" then { p with content := some (.text text) }
  else if name = "colspan" then { p with colspan := readSpan? text }
  else if name = "rowspan" then { p with rowspan := readSpan? text }
  else if name = "id" then { p with id := some text }
  else { p with attributes := p.attributes.setNamed name text }

/-- Whether `removeAttribute` has something to remove. -/
def hasAttribute (p : Patch) (name : String) : Bool :=
  if name = "cell" then false
  else if name = "colspan" then p.colspan.isSome
  else if name = "rowspan" then p.rowspan.isSome
  else if name = "id" then p.id.isSome
  else p.attributes.hasNamed name

/-- Remove anything but the content by its name. -/
def removeAttribute (p : Patch) (name : String) : Patch :=
  if name = "cell" then p
  else if name = "colspan" then { p with colspan := none }
  else if name = "rowspan" then { p with rowspan := none }
  else if name = "id" then { p with id := none }
  else { p with attributes := p.attributes.removeNamed name }

/-- Remove everything but the content. -/
def clearAttributes (p : Patch) : Patch := { content := p.content }

/-- Whether the patch carries anything besides a content. -/
def hasAttributes (p : Patch) : Bool :=
  p.colspan.isSome || p.rowspan.isSome || p.id.isSome || !p.attributes.isEmpty

/-! ### JSON -/

/-- The names of the fields of a patch; all other members are attributes. -/
def fieldNames : List String := ["cell", "colspan", "rowspan", "id"]

/-- The patch of an object's members.  A span that is no number is absent. -/
def ofMembers? (members : List (String × Json)) : Option Patch := do
  let content ← Json.optional members "cell" Content.ofJson?
  let colspan ← Json.withDefault members "colspan" none fun j => some (spanOfJson? j)
  let rowspan ← Json.withDefault members "rowspan" none fun j => some (spanOfJson? j)
  let id ← Json.optional members "id" Json.string?
  return ⟨content, colspan, rowspan, id, Attributes.ofMembers (Json.without members fieldNames)⟩

/-- A patch is an object. -/
def ofJson? : Json → Option Patch
  | .object members => ofMembers? members
  | _ => none

/-- The JSON form of a patch. -/
def toJson (p : Patch) : Json :=
  .object <| Json.optionalMember "cell" Content.toJson p.content ++
    Json.optionalMember "colspan" spanToJson p.colspan ++
    Json.optionalMember "rowspan" spanToJson p.rowspan ++
    Json.optionalMember "id" .string p.id ++ p.attributes.toMembers

end Patch

/-- A cell as a table or an overlay writes it. -/
inductive Entry where
  | styled (patch : Patch)
  | plain (content : Content)
deriving DecidableEq

namespace Entry

/-- What the entry writes onto a cell.  A bare content is always written, also an empty one. -/
def toPatch : Entry → Patch
  | .styled p => p
  | .plain c => .ofContent c

/-- The content that the entry carries, if any. -/
def content? : Entry → Option Content
  | .styled p => p.content
  | .plain c => some c

/-- The same entry with another content. -/
def setContent (c : Content) : Entry → Entry
  | .styled p => .styled { p with content := some c }
  | .plain _ => .plain c

/-- An object is a patch, any value without parts a bare content. -/
def ofJson? : Json → Option Entry
  | .object members => (Patch.ofMembers? members).map .styled
  | j => (Content.ofJson? j).map .plain

/-- The JSON form of an entry. -/
def toJson : Entry → Json
  | .styled p => p.toJson
  | .plain c => c.toJson

end Entry

end TableGrid
