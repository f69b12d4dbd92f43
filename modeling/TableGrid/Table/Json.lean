import TableGrid.Json.Parser
import TableGrid.Table.Basic

/-! # Tables as JSON

A table is an object with fixed fields; all other members are its attributes.  Fields that
hold nothing are left out when a table is written.

* `Table.ofJson?`, `Table.toJson`     between values
* `Table.parse`, `Table.print`        between texts
-/

namespace TableGrid

namespace Row

/-- The names of the fields of a row. -/
def fieldNames : List String := ["row", "id"]

/-- A row is an object. -/
def ofJson? : Json → Option Row
  | .object members => do
    let cells ← Json.withDefault members "row" [] (Json.listOf? Entry.ofJson?)
    let id ← Json.optional members "id" Json.string?
    return ⟨cells, id, Attributes.ofMembers (Json.without members fieldNames)⟩
  | _ => none

/-- The JSON form of a row. -/
def toJson (r : Row) : Json :=
  .object <| Json.listMember "row" Entry.toJson r.cells ++
    Json.optionalMember "id" .string r.id ++ r.attributes.toMembers

end Row

namespace Column

/-- The names of the fields of a column. -/
def fieldNames : List String := ["id", "span"]

/-- A column is an object. -/
def ofJson? : Json → Option Column
  | .object members => do
    let id ← Json.optional members "id" Json.string?
    let span ← Json.withDefault members "span" none fun j => some (spanOfJson? j)
    return ⟨id, span, Attributes.ofMembers (Json.without members fieldNames)⟩
  | _ => none

/-- The JSON form of a column. -/
def toJson (c : Column) : Json :=
  .object <| Json.optionalMember "id" .string c.id ++
    Json.optionalMember "span" spanToJson c.span ++ c.attributes.toMembers

end Column

namespace BlockKind

/-- The name of a kind. -/
def name : BlockKind → String
  | .relative => "Relative"
  | .abstract => "Abstract"

/-- The kind of a name. -/
def ofName? (name : String) : Option BlockKind :=
  [relative, abstract].find? (·.name == name)

/-- A kind is written as its name, or as an object with the name over `null`. -/
def ofJson? : Json → Option BlockKind
  | .string name => ofName? name
  | .object [(name, .null)] => ofName? name
  | _ => none

end BlockKind

namespace DataBlock

/-- A data block is an object, other members being skipped, or an array of its fields. -/
def ofJson? : Json → Option DataBlock
  | .object members => do
    let kind ← Json.withDefault members "type" .relative BlockKind.ofJson?
    let overlay ← Json.withDefault members "cells" .empty Overlay.ofJson?
    return ⟨kind, overlay⟩
  | .array [] => some {}
  | .array [kind] => do return ⟨← BlockKind.ofJson? kind, .empty⟩
  | .array [kind, overlay] => do
    return ⟨← BlockKind.ofJson? kind, ← Overlay.ofJson? overlay⟩
  | _ => none

/-- What is read of a data block: its fields. -/
def shape : Json.Shape := .record [("type", .whole), ("cells", .whole)] false

/-- Read a data block from its text. -/
def parse? (text : String) : Option DataBlock := (Json.parseAs? shape text).bind ofJson?

/-- The JSON form of a data block. -/
def toJson (b : DataBlock) : Json :=
  .object [("type", .string b.kind.name), ("cells", b.overlay.toJson)]

end DataBlock

namespace Table

/-- The names of the fields of a table. -/
def fieldNames : List String :=
  ["countRow", "countCol", "rows", "columns", "defrows", "defcols", "defcells",
    "defrowsrange", "defcolsrange", "defcellsrange", "tabledatablock"]

/-- A table is an object. -/
def ofJson? : Json → Option Table
  | .object members => do
    return {
      rowCount := ← Json.optional members "countRow" (Json.nat? Text.maxWord)
      colCount := ← Json.optional members "countCol" (Json.nat? Text.maxWord)
      rows := ← Json.withDefault members "rows" [] (Json.listOf? Row.ofJson?)
      columns := ← Json.withDefault members "columns" [] (Json.listOf? Column.ofJson?)
      rowDefaults := ← Json.optional members "defrows" Attributes.ofJson?
      colDefaults := ← Json.optional members "defcols" Attributes.ofJson?
      cellDefaults := ← Json.optional members "defcells" Attributes.ofJson?
      rowRanges :=
        ← Json.withDefault members "defrowsrange" [] (Json.listOf? RangedDefault.ofJson?)
      colRanges :=
        ← Json.withDefault members "defcolsrange" [] (Json.listOf? RangedDefault.ofJson?)
      cellRanges :=
        ← Json.withDefault members "defcellsrange" [] (Json.listOf? RangedDefault.ofJson?)
      block := ← Json.optional members "tabledatablock" DataBlock.ofJson?
      attributes := Attributes.ofMembers (Json.without members fieldNames) }
  | _ => none

/-- What is read of a table: all but what its ranged defaults and its data block skip. -/
def shape : Json.Shape :=
  .record
    [("defrowsrange", .items RangedDefault.shape),
      ("defcolsrange", .items RangedDefault.shape),
      ("defcellsrange", .items RangedDefault.shape),
      ("tabledatablock", DataBlock.shape)]
    true

/-- The JSON form of a count. -/
def countToJson (n : Nat) : Json := .number (.whole n)

/-- The JSON form of a table. -/
def toJson (t : Table) : Json :=
  .object <| Json.optionalMember "countRow" countToJson t.rowCount ++
    Json.optionalMember "countCol" countToJson t.colCount ++
    Json.listMember "rows" Row.toJson t.rows ++
    Json.listMember "columns" Column.toJson t.columns ++
    Json.optionalMember "defrows" Attributes.toJson t.rowDefaults ++
    Json.optionalMember "defcols" Attributes.toJson t.colDefaults ++
    Json.optionalMember "defcells" Attributes.toJson t.cellDefaults ++
    Json.listMember "defrowsrange" RangedDefault.toJson t.rowRanges ++
    Json.listMember "defcolsrange" RangedDefault.toJson t.colRanges ++
    Json.listMember "defcellsrange" RangedDefault.toJson t.cellRanges ++
    Json.optionalMember "tabledatablock" DataBlock.toJson t.block ++
    t.attributes.toMembers

/-- Read a table from its text. -/
def parse (text : String) : Except TableError Table :=
  match (Json.parseAs? shape text).bind ofJson? with
  | some t => .ok t
  | none => .error .undecodable

/-- The text of a table, over several lines. -/
def print (t : Table) : String := t.toJson.pretty

end Table

end TableGrid
