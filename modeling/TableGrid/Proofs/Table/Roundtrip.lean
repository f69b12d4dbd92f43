import TableGrid.Proofs.Table.Parts

/-!
# Tables that are written and read again

A table that was read is written as a value that reads as the same table, but for the texts of its
malformed rules.  A table with contents that are lost can be written too, and reads as
`Table.readBack` without them.

## Key results

- `Table.storable_of_ofJson?`: a table that was read can be written
- `Table.Writable.ofJson?_toJson`: what is read of a table that was written
- `Table.Storable.ofJson?_toJson`: without contents that are lost it reads as itself
- `Table.parse_print`: the text of a table that was read
-/

namespace TableGrid

variable {j : Json} {d : Nat}

namespace Table

variable {t : Table}

/-- Whether a table can be written and read again. -/
structure Storable (d : Nat) (t : Table) : Prop where
  rowCount : ∀ n ∈ t.rowCount, n ≤ Text.maxWord
  colCount : ∀ n ∈ t.colCount, n ≤ Text.maxWord
  rows : ∀ r ∈ t.rows, r.Storable d
  columns : ∀ c ∈ t.columns, c.attributes.Storable Column.fieldNames (d + 2)
  rowDefaults : ∀ a ∈ t.rowDefaults, a.Storable [] (d + 3)
  colDefaults : ∀ a ∈ t.colDefaults, a.Storable [] (d + 3)
  cellDefaults : ∀ a ∈ t.cellDefaults, a.Storable [] (d + 3)
  rowRanges : ∀ r ∈ t.rowRanges, r.Storable (d + 1)
  colRanges : ∀ r ∈ t.colRanges, r.Storable (d + 1)
  cellRanges : ∀ r ∈ t.cellRanges, r.Storable (d + 1)
  block : ∀ b ∈ t.block, b.overlay.Storable (d + 1)
  attributes : t.attributes.Storable fieldNames (d + 4)

/-- The table that is read of one that was written. -/
def reread (t : Table) : Table :=
  { t with
    rowRanges := t.rowRanges.map RangedDefault.reread
    colRanges := t.colRanges.map RangedDefault.reread
    cellRanges := t.cellRanges.map RangedDefault.reread }

/-- A table without the texts of its malformed rules. -/
def forgetRaw (t : Table) : Table :=
  { t with
    rowRanges := t.rowRanges.map RangedDefault.forgetRaw
    colRanges := t.colRanges.map RangedDefault.forgetRaw
    cellRanges := t.cellRanges.map RangedDefault.forgetRaw }

theorem forgetRaw_reread (t : Table) : t.reread.forgetRaw = t.forgetRaw := by
  have hmap (rs : List RangedDefault) :
      (rs.map RangedDefault.reread).map RangedDefault.forgetRaw =
        rs.map RangedDefault.forgetRaw := by
    rw [List.map_map]
    exact List.map_congr_left fun r _ => r.forgetRaw_reread
  rw [reread, forgetRaw, hmap, hmap, hmap]
  rfl

/-- Whether a table can be written, and read again but for contents that are lost. -/
structure Writable (d : Nat) (t : Table) : Prop where
  /-- Whatever has no contents. -/
  rest : ({ t with rows := [], block := none } : Table).Storable d
  rows : ∀ r ∈ t.rows, r.Writable d
  block : ∀ b ∈ t.block, b.overlay.Writable (d + 1)

/-- What is read of a table that was written. -/
def readBack (t : Table) : Table :=
  { t.reread with
    rows := t.rows.map Row.readBack
    block := t.block.map DataBlock.readBack }

theorem Storable.writable (h : t.Storable d) : t.Writable d where
  rest := { h with rows := by simp, block := by simp }
  rows := fun r hr => (h.rows r hr).writable
  block := fun b hb => (h.block b hb).writable

theorem Storable.readBack_eq (h : t.Storable d) : t.readBack = t.reread := by
  have hrows : t.rows.map Row.readBack = t.rows := by
    rw [List.map_congr_left fun r hr => (h.rows r hr).readBack_eq, List.map_id']
  have hblock : t.block.map DataBlock.readBack = t.block := by
    cases hb : t.block with
    | none => rfl
    | some b => exact congrArg some (DataBlock.readBack_eq (h.block b hb))
  rw [readBack, hrows, hblock]
  rfl

theorem name_not_mem_fieldNames (key : Property) : key.name ∉ fieldNames := by
  cases key <;> decide

/-! ## Reading -/

theorem le_maxWord_of_optional {members : List (String × Json)} {name : String} {count : Option Nat}
    (h : Json.optional members name (Json.nat? Text.maxWord) = some count) :
    ∀ n ∈ count, n ≤ Text.maxWord := by
  rintro n rfl
  obtain ⟨j, -, -, hdecode⟩ := Json.optional_eq_some h
  cases j with
  | number i =>
    cases i with
    | whole i =>
      obtain ⟨hword, heq⟩ := Option.ite_none_right_eq_some.1 hdecode
      obtain rfl := Option.some.inj heq
      omega
    | binary _ => cases hdecode
  | _ => cases hdecode

theorem storable_of_ofJson? (hfits : j.Fits (d + 5)) (h : ofJson? j = some t) : t.Storable d := by
  cases j with
  | object members =>
    obtain ⟨rowCount, hrowCount, h⟩ := Option.bind_eq_some_iff.1 h
    obtain ⟨colCount, hcolCount, h⟩ := Option.bind_eq_some_iff.1 h
    obtain ⟨rows, hrows, h⟩ := Option.bind_eq_some_iff.1 h
    obtain ⟨columns, hcolumns, h⟩ := Option.bind_eq_some_iff.1 h
    obtain ⟨rowDefaults, hrowDefaults, h⟩ := Option.bind_eq_some_iff.1 h
    obtain ⟨colDefaults, hcolDefaults, h⟩ := Option.bind_eq_some_iff.1 h
    obtain ⟨cellDefaults, hcellDefaults, h⟩ := Option.bind_eq_some_iff.1 h
    obtain ⟨rowRanges, hrowRanges, h⟩ := Option.bind_eq_some_iff.1 h
    obtain ⟨colRanges, hcolRanges, h⟩ := Option.bind_eq_some_iff.1 h
    obtain ⟨cellRanges, hcellRanges, h⟩ := Option.bind_eq_some_iff.1 h
    obtain ⟨block, hblock, h⟩ := Option.bind_eq_some_iff.1 h
    obtain rfl := Option.some.inj h
    exact {
      rowCount := le_maxWord_of_optional hrowCount
      colCount := le_maxWord_of_optional hcolCount
      rows := Json.forall_of_withDefault_listOf? hfits hrows fun _ _ => Row.storable_of_ofJson?
      columns :=
        Json.forall_of_withDefault_listOf? hfits hcolumns fun _ _ => Column.storable_of_ofJson?
      rowDefaults :=
        Json.forall_of_optional hfits hrowDefaults fun _ _ => Attributes.storable_of_ofJson?
      colDefaults :=
        Json.forall_of_optional hfits hcolDefaults fun _ _ => Attributes.storable_of_ofJson?
      cellDefaults :=
        Json.forall_of_optional hfits hcellDefaults fun _ _ => Attributes.storable_of_ofJson?
      rowRanges := Json.forall_of_withDefault_listOf? hfits hrowRanges
        fun _ _ => RangedDefault.storable_of_ofJson?
      colRanges := Json.forall_of_withDefault_listOf? hfits hcolRanges
        fun _ _ => RangedDefault.storable_of_ofJson?
      cellRanges := Json.forall_of_withDefault_listOf? hfits hcellRanges
        fun _ _ => RangedDefault.storable_of_ofJson?
      block := Json.forall_of_optional hfits hblock fun _ _ => DataBlock.storable_of_ofJson?
      attributes := Attributes.storable_ofMembers_without fun m => hfits.of_mem_object }
  | _ => cases h

/-! ## Writing -/

/-- What is written in the fields of a table. -/
def fieldMembers (t : Table) : List (String × Json) :=
  Json.optionalMember "countRow" countToJson t.rowCount ++
    Json.optionalMember "countCol" countToJson t.colCount ++
    Json.listMember "rows" Row.toJson t.rows ++
    Json.listMember "columns" Column.toJson t.columns ++
    Json.optionalMember "defrows" Attributes.toJson t.rowDefaults ++
    Json.optionalMember "defcols" Attributes.toJson t.colDefaults ++
    Json.optionalMember "defcells" Attributes.toJson t.cellDefaults ++
    Json.listMember "defrowsrange" RangedDefault.toJson t.rowRanges ++
    Json.listMember "defcolsrange" RangedDefault.toJson t.colRanges ++
    Json.listMember "defcellsrange" RangedDefault.toJson t.cellRanges ++
    Json.optionalMember "tabledatablock" DataBlock.toJson t.block

/-- What is written of a table. -/
def members (t : Table) : List (String × Json) := t.fieldMembers ++ t.attributes.toMembers

theorem toJson_eq (t : Table) : t.toJson = .object t.members := rfl

theorem mem_fieldNames {name : String} (h : name ∈ Json.names t.fieldMembers) :
    name ∈ fieldNames := by
  simp only [fieldMembers, Json.mem_names_append, Json.mem_names_optionalMember,
    Json.mem_names_listMember] at h
  simp only [fieldNames, List.mem_cons]
  tauto

theorem nat?_countToJson {n : Nat} (h : n ≤ Text.maxWord) :
    Json.nat? Text.maxWord (countToJson n) = some n := by
  have hword : (0 : Int) ≤ n ∧ (n : Int) ≤ Text.maxWord := by omega
  rw [countToJson, Json.nat?, Json.Number.toNat?, if_pos hword]
  rfl

/-- Under the name of a field is what is written in the field. -/
theorem Writable.filter_members (h : t.Writable d) {name : String} {part : List (String × Json)}
    (hname : name ∈ fieldNames) (hpart : t.fieldMembers.filter (·.1 == name) = part) :
    t.members.filter (·.1 == name) = part :=
  h.rest.attributes.filter_append_toMembers name_not_mem_fieldNames hname hpart

theorem Writable.optional_count (h : t.Writable d) {name : String} {count : Option Nat}
    (hcount : ∀ n ∈ count, n ≤ Text.maxWord) (hname : name ∈ fieldNames)
    (hpart : t.fieldMembers.filter (·.1 == name) = Json.optionalMember name countToJson count) :
    Json.optional t.members name (Json.nat? Text.maxWord) = some count :=
  Json.optional_of_filter countToJson (h.filter_members hname hpart) fun n hn =>
    ⟨nofun, nat?_countToJson (hcount n hn)⟩

theorem Writable.optional_defaults (h : t.Writable d) {name : String} {a : Option Attributes}
    (ha : ∀ s ∈ a, s.Storable [] (d + 3)) (hname : name ∈ fieldNames)
    (hpart : t.fieldMembers.filter (·.1 == name) =
      Json.optionalMember name Attributes.toJson a) :
    Json.optional t.members name Attributes.ofJson? = some a :=
  Json.optional_of_filter Attributes.toJson (h.filter_members hname hpart) fun s hs =>
    ⟨nofun, congrArg some (ha s hs).ofMembers_toMembers⟩

theorem Writable.withDefault_ranges (h : t.Writable d) {name : String} {rs : List RangedDefault}
    (hrs : ∀ r ∈ rs, r.Storable (d + 1)) (hname : name ∈ fieldNames)
    (hpart : t.fieldMembers.filter (·.1 == name) =
      Json.listMember name RangedDefault.toJson rs) :
    Json.withDefault t.members name [] (Json.listOf? RangedDefault.ofJson?) =
      some (rs.map RangedDefault.reread) :=
  Json.withDefault_listOf? RangedDefault.toJson (h.filter_members hname hpart) fun r hr =>
    (hrs r hr).ofJson?_toJson

/-- What is read of a table that was written. -/
theorem Writable.ofJson?_toJson (h : t.Writable d) : ofJson? t.toJson = some t.readBack := by
  have hrows : Json.withDefault t.members "rows" [] (Json.listOf? Row.ofJson?) =
      some (t.rows.map Row.readBack) := by
    refine Json.withDefault_listOf? Row.toJson (h.filter_members (by decide) ?_) fun r hr =>
      (h.rows r hr).ofJson?_toJson
    simp [fieldMembers, Json.filter_optionalMember, Json.filter_listMember]
  have hcolumns : Json.withDefault t.members "columns" [] (Json.listOf? Column.ofJson?) =
      some (t.columns.map id) := by
    refine Json.withDefault_listOf? Column.toJson (h.filter_members (by decide) ?_) fun c hc =>
      Column.ofJson?_toJson (h.rest.columns c hc)
    simp [fieldMembers, Json.filter_optionalMember, Json.filter_listMember]
  have hblock : Json.optional t.members "tabledatablock" DataBlock.ofJson? =
      some (t.block.map DataBlock.readBack) := by
    rw [Option.map_eq_bind]
    refine Json.optional_of_filter_bind DataBlock.toJson (h.filter_members (by decide) ?_)
      (fun b _ hnull => absurd hnull b.toJson_ne_null)
      fun b hb _ => ⟨b.readBack, DataBlock.ofJson?_toJson (h.block b hb), rfl⟩
    simp [fieldMembers, Json.filter_optionalMember, Json.filter_listMember]
  have hattributes : Attributes.ofMembers (Json.without t.members fieldNames) = t.attributes :=
    h.rest.attributes.ofMembers_append_toMembers name_not_mem_fieldNames t.fieldMembers
      fun name => mem_fieldNames
  rw [toJson_eq, ofJson?, h.optional_count h.rest.rowCount (by decide),
    h.optional_count h.rest.colCount (by decide), hrows, hcolumns,
    h.optional_defaults h.rest.rowDefaults (by decide),
    h.optional_defaults h.rest.colDefaults (by decide),
    h.optional_defaults h.rest.cellDefaults (by decide),
    h.withDefault_ranges h.rest.rowRanges (by decide),
    h.withDefault_ranges h.rest.colRanges (by decide),
    h.withDefault_ranges h.rest.cellRanges (by decide), hblock, hattributes, List.map_id]
  · rfl
  all_goals simp [fieldMembers, Json.filter_optionalMember, Json.filter_listMember]

/-- A table that can be written reads as itself, but for the texts of its malformed rules. -/
theorem Storable.ofJson?_toJson (h : t.Storable d) : ofJson? t.toJson = some t.reread := by
  rw [h.writable.ofJson?_toJson, h.readBack_eq]

theorem fits_countToJson {n : Nat} (h : n ≤ Text.maxWord) : (countToJson n).Fits d := by
  refine .number (n := .whole n) ⟨?_, Int.ofNat_le.2 h⟩
  exact Int.le_trans (by decide) (Int.natCast_nonneg _)

theorem Writable.fits_members (h : t.Writable d) : ∀ m ∈ t.members, m.2.Fits (d + 4) := by
  refine List.forall_mem_append.2 ⟨?_, h.rest.attributes.fits⟩
  simp only [fieldMembers, List.forall_mem_append]
  refine ⟨⟨⟨⟨⟨⟨⟨⟨⟨⟨?_, ?_⟩, ?_⟩, ?_⟩, ?_⟩, ?_⟩, ?_⟩, ?_⟩, ?_⟩, ?_⟩, ?_⟩
  · exact Json.fits_optionalMember fun n hn => fits_countToJson (h.rest.rowCount n hn)
  · exact Json.fits_optionalMember fun n hn => fits_countToJson (h.rest.colCount n hn)
  · exact Json.fits_listMember fun r hr => (h.rows r hr).fits_toJson
  · exact Json.fits_listMember fun c hc => Column.fits_toJson (h.rest.columns c hc)
  · exact Json.fits_optionalMember fun a ha => (h.rest.rowDefaults a ha).fits_toJson
  · exact Json.fits_optionalMember fun a ha => (h.rest.colDefaults a ha).fits_toJson
  · exact Json.fits_optionalMember fun a ha => (h.rest.cellDefaults a ha).fits_toJson
  · exact Json.fits_listMember fun r hr => (h.rest.rowRanges r hr).fits_toJson
  · exact Json.fits_listMember fun r hr => (h.rest.colRanges r hr).fits_toJson
  · exact Json.fits_listMember fun r hr => (h.rest.cellRanges r hr).fits_toJson
  · exact Json.fits_optionalMember fun b hb => DataBlock.fits_toJson (h.block b hb)

/-! ## Texts -/

/-- What is read of a member: all of it, but for ranged defaults and the data block. -/
theorem member?_shape (name : String) :
    (name ∈ ["defrowsrange", "defcolsrange", "defcellsrange"] ∧
        shape.member? name = some (.items RangedDefault.shape)) ∨
      (name = "tabledatablock" ∧ shape.member? name = some DataBlock.shape) ∨
      shape.member? name = some .whole := by
  by_cases hrow : name = "defrowsrange"
  · subst hrow
    exact .inl ⟨by decide, rfl⟩
  by_cases hcol : name = "defcolsrange"
  · subst hcol
    exact .inl ⟨by decide, rfl⟩
  by_cases hcell : name = "defcellsrange"
  · subst hcell
    exact .inl ⟨by decide, rfl⟩
  by_cases hblock : name = "tabledatablock"
  · subst hblock
    exact .inr (.inl ⟨rfl, rfl⟩)
  · refine .inr (.inr ?_)
    simp only [shape, Json.Shape.member?, List.lookup_cons, List.lookup_nil,
      beq_eq_false_iff_ne.2 hrow, beq_eq_false_iff_ne.2 hcol, beq_eq_false_iff_ne.2 hcell,
      beq_eq_false_iff_ne.2 hblock]
    rfl

/-- What is written under the name of a field is written in the field. -/
theorem Writable.mem_field {name : String} {value : Json} {part : List (String × Json)}
    (h : t.Writable d) (hmem : (name, value) ∈ t.members)
    (hname : name ∈ fieldNames) (hpart : t.fieldMembers.filter (·.1 == name) = part) :
    (name, value) ∈ part := by
  rw [← h.filter_members hname hpart, List.mem_filter]
  exact ⟨hmem, beq_self_eq_true name⟩

/-- What is written of ranged defaults is a list of them. -/
theorem Writable.exists_ranges (h : t.Writable d) {name : String} {value : Json}
    (hmem : (name, value) ∈ t.members)
    (hname : name ∈ ["defrowsrange", "defcolsrange", "defcellsrange"]) :
    ∃ rs : List RangedDefault, (∀ r ∈ rs, r.Storable (d + 1)) ∧
      value = .array (rs.map RangedDefault.toJson) := by
  have hlist (rs : List RangedDefault) (hfield : name ∈ fieldNames)
      (hpart : t.fieldMembers.filter (·.1 == name) = Json.listMember name RangedDefault.toJson rs) :
      value = .array (rs.map RangedDefault.toJson) :=
    (Prod.mk.inj (Json.mem_listMember (h.mem_field hmem hfield hpart))).2
  simp only [List.mem_cons, List.not_mem_nil, or_false] at hname
  rcases hname with rfl | rfl | rfl
  · refine ⟨t.rowRanges, h.rest.rowRanges, hlist _ (by decide) ?_⟩
    simp [fieldMembers, Json.filter_optionalMember, Json.filter_listMember]
  · refine ⟨t.colRanges, h.rest.colRanges, hlist _ (by decide) ?_⟩
    simp [fieldMembers, Json.filter_optionalMember, Json.filter_listMember]
  · refine ⟨t.cellRanges, h.rest.cellRanges, hlist _ (by decide) ?_⟩
    simp [fieldMembers, Json.filter_optionalMember, Json.filter_listMember]

/-- What is written of a data block is one. -/
theorem Writable.exists_block (h : t.Writable d) {value : Json}
    (hmem : ("tabledatablock", value) ∈ t.members) :
    ∃ b ∈ t.block, value = b.toJson := by
  have hfield : ("tabledatablock", value) ∈
      Json.optionalMember "tabledatablock" DataBlock.toJson t.block := by
    refine h.mem_field hmem (by decide) ?_
    simp [fieldMembers, Json.filter_optionalMember, Json.filter_listMember]
  obtain ⟨b, hb, heq⟩ := Json.mem_optionalMember hfield
  exact ⟨b, hb, (Prod.mk.inj heq).2⟩

/-- A table that can be written can be read from its text if its binary numbers can. -/
theorem Writable.readable_toJson (h : t.Writable d)
    (hbinaries : ∀ x ∈ t.toJson.binaries, (Json.Number.binary x).ReadsBack) :
    Json.Readable (d + 5) shape t.toJson := by
  rw [toJson_eq] at hbinaries ⊢
  refine .object (fun m hm => ?_) fun m hm field hfield => ?_
  · rcases member?_shape m.1 with ⟨-, hm⟩ | ⟨-, hm⟩ | hm <;> rw [hm] <;> rfl
  · have hvalue : ∀ x ∈ m.2.binaries, (Json.Number.binary x).ReadsBack :=
      fun x hx => hbinaries x (Json.mem_binaries_object hm hx)
    obtain ⟨name, value⟩ := m
    -- Other shapes than the whole one are those of ranged defaults and of the data block.
    rcases member?_shape name with ⟨hname, hshape⟩ | ⟨rfl, hshape⟩ | hshape
    · obtain ⟨rs, hrs, rfl⟩ := h.exists_ranges hm hname
      obtain rfl := Option.some.inj (hshape.symm.trans hfield)
      refine .array fun j hj => ?_
      obtain ⟨r, hr, rfl⟩ := List.mem_map.1 hj
      exact (hrs r hr).readable_toJson fun x hx => hvalue x (Json.mem_binaries_array hj hx)
    · obtain ⟨b, hb, rfl⟩ := h.exists_block hm
      obtain rfl := Option.some.inj (hshape.symm.trans hfield)
      exact DataBlock.readable_toJson (h.block b hb) hvalue
    · obtain rfl := Option.some.inj (hshape.symm.trans hfield)
      exact (h.fits_members _ hm).readable hvalue

theorem Storable.readable_toJson (h : t.Storable d)
    (hbinaries : ∀ x ∈ t.toJson.binaries, (Json.Number.binary x).ReadsBack) :
    Json.Readable (d + 5) shape t.toJson :=
  h.writable.readable_toJson hbinaries

theorem parse_eq_ok {text : String} (h : parse text = .ok t) :
    ∃ j, Json.parseAs? shape text = some j ∧ ofJson? j = some t := by
  unfold parse at h
  split at h
  · rename_i t' hread
    obtain rfl := Except.ok.inj h
    exact Option.bind_eq_some_iff.1 hread
  · cases h

/-- A table that was read from a text is written as a text from which the same table is read, if its
    binary numbers are read from what is written of them; a malformed rule is read as a malformed
    one, with another text. -/
theorem parse_print {text : String} (h : parse text = .ok t)
    (hbinaries : ∀ x ∈ t.toJson.binaries, (Json.Number.binary x).ReadsBack) :
    ∃ t', parse t.print = .ok t' ∧ t'.forgetRaw = t.forgetRaw := by
  obtain ⟨j, hj, ht⟩ := parse_eq_ok h
  -- What was read fits, so it can be written, and the text of what can be written reads back.
  have hstorable := storable_of_ofJson? (Json.fits_of_parseAs? hj) ht
  have hread : Json.parseAs? shape t.print = some t.toJson :=
    (hstorable.readable_toJson hbinaries).parseAs?_pretty
  refine ⟨t.reread, ?_, t.forgetRaw_reread⟩
  rw [parse, hread, Option.bind_some, hstorable.ofJson?_toJson]

/-- A table with a patch, a malformed rule and two keys for one cell. -/
def patchedText : String :=
  "\x7b\"rows\":[\x7b\"row\":[\x7b\"cell\":2.5,\"colspan\":\" 3 \",\"color\":7,\"note\":" ++
    "\x7b\"b\":null,\"a\":[1]\x7d\x7d]\x7d],\"defcellsrange\":[[\"x\"]]," ++
    "\"tabledatablock\":\x7b\"cells\":\x7b\"A1\":\"x\",\"A01\":null\x7d\x7d\x7d"

theorem parse_print_patched : ∃ t t', parse patchedText = .ok t ∧ t.toJson.binaries = [2.5] ∧
    parse t.print = .ok t' ∧ t'.forgetRaw = t.forgetRaw := by
  have hread : ∃ t, parse patchedText = .ok t ∧ t.toJson.binaries = [2.5] := by
    have hcheck : (parse patchedText).toOption.any (·.toJson.binaries = [2.5]) = true := by
      decide +kernel
    generalize parse patchedText = r at hcheck ⊢
    cases r with
    | ok t => exact ⟨t, rfl, of_decide_eq_true hcheck⟩
    | error _ => cases hcheck
  obtain ⟨t, h, hbinaries⟩ := hread
  have hnumber : (Json.Number.binary 2.5).ReadsBack := by decide +kernel
  obtain ⟨t', h', heq⟩ := parse_print h fun x hx => by
    rw [hbinaries, List.mem_singleton] at hx
    rw [hx]
    exact hnumber
  exact ⟨t, t', h, hbinaries, h', heq⟩

end Table

end TableGrid
