import TableGrid.Cell.Patch
import TableGrid.Table.Reshape

/-! # Overlays

An overlay maps addresses to entries that are layered on top of a table.  Keys are kept as
they are written, so an entry whose key is no address survives reading and writing; several
keys such as `A1` and `A01` may name one cell.  Keys are ordered by their bytes.
-/

namespace TableGrid

/-- Entries by address. -/
structure Overlay where
  entries : Std.ExtTreeMap String Entry := ∅
deriving DecidableEq

namespace Overlay

/-- The overlay without entries. -/
def empty : Overlay := {}

/-- The number of entries. -/
def size (o : Overlay) : Nat := o.entries.size

/-- Whether there are no entries. -/
def isEmpty (o : Overlay) : Bool := o.entries.isEmpty

/-- The entry under a key. -/
def get? (o : Overlay) (key : String) : Option Entry := o.entries[key]?

/-- The entry under the address of a coordinate. -/
def getAt? (o : Overlay) (p : Coord) : Option Entry := o.get? p.address

/-- Store an entry under a key. -/
def insert (o : Overlay) (key : String) (entry : Entry) : Overlay := ⟨o.entries.insert key entry⟩

/-- Remove the entry under a key. -/
def erase (o : Overlay) (key : String) : Overlay := ⟨o.entries.erase key⟩

/-- All entries in the order of their keys. -/
def toList (o : Overlay) : List (String × Entry) := o.entries.toList

/-- The coordinates that keys name, with what is written there, in the order of the keys. -/
def placements (o : Overlay) : List (Coord × Patch) :=
  o.toList.filterMap fun (key, entry) =>
    match Coord.ofAddress? key with
    | .ok p => some (p, entry.toPatch)
    | .error _ => none

/-- The number of rows and columns that reach every coordinate named. -/
def extent (o : Overlay) : Nat × Nat :=
  o.placements.foldl (fun (rows, cols) (p, _) => (max rows (p.row + 1), max cols (p.col + 1)))
    (0, 0)

/-! ### Editing -/

/-- Record a content for a coordinate.  A bare content stays bare, a patch keeps what else it
    carries. -/
def setContent (o : Overlay) (p : Coord) (c : Content) : Overlay :=
  match o.getAt? p with
  | some entry => o.insert p.address (entry.setContent c)
  | none => o.insert p.address (.plain c)

/-- A doubled `#` in front of a text is reduced to one. -/
def reduceHash (text : String) : String :=
  match text.toList with
  | '#' :: '#' :: rest => String.ofList ('#' :: rest)
  | _ => text

/-- Set an attribute for a coordinate; a bare content becomes a patch. -/
def setAttribute (o : Overlay) (p : Coord) (name text : String) : Overlay :=
  let patch := match o.getAt? p with
    | some entry => entry.toPatch
    | none => .empty
  o.insert p.address (.styled (patch.setAttribute name (reduceHash text)))

/-- Whether `clearAttribute` changes anything. -/
def canClearAttribute (o : Overlay) (p : Coord) (name : String) : Bool :=
  match o.getAt? p with
  | some (.styled patch) => patch.hasAttribute name
  | _ => false

/-- Remove an attribute for a coordinate. -/
def clearAttribute (o : Overlay) (p : Coord) (name : String) : Overlay :=
  match o.getAt? p with
  | some (.styled patch) => o.insert p.address (.styled (patch.removeAttribute name))
  | _ => o

/-- Whether `clearAttributes` changes anything. -/
def canClearAttributes (o : Overlay) (p : Coord) : Bool :=
  match o.getAt? p with
  | some (.styled _) => true
  | _ => false

/-- Remove all attributes for a coordinate and leave the content.  A patch without content is
    removed, so that the cell below shows again. -/
def clearAttributes (o : Overlay) (p : Coord) : Overlay :=
  match o.getAt? p with
  | some (.styled patch) =>
    match patch.content with
    | some c => o.insert p.address (.plain c)
    | none => o.erase p.address
  | _ => o

/-- Move one entry of an overlay into another one: an entry whose key is an address goes where
    the reshaping takes its cell, all others stay. -/
def moveEntry (r : Reshape) (target : Overlay) (key : String) (entry : Entry) : Overlay :=
  match Coord.ofAddress? key with
  | .ok p =>
    match r.move? p with
    | some q => target.insert q.address entry
    | none => target
  | .error _ => target.insert key entry

/-- Move the entries along with the cells of a reshaped table.  Where two entries meet, the
    one with the later key stays. -/
def reshape (o : Overlay) (r : Reshape) : Overlay :=
  o.toList.foldl (fun target (key, entry) => moveEntry r target key entry) empty

/-! ### JSON -/

/-- An overlay is an object of entries; of a repeated key the last entry counts, but each one
    has to decode. -/
def ofJson? : Json → Option Overlay
  | .object members => do
    let entries ← members.mapM fun (key, value) => return (key, ← Entry.ofJson? value)
    return ⟨Std.ExtTreeMap.ofList entries⟩
  | _ => none

/-- The JSON form of an overlay. -/
def toJson (o : Overlay) : Json := .object (o.toList.map fun (key, entry) => (key, entry.toJson))

end Overlay

end TableGrid
