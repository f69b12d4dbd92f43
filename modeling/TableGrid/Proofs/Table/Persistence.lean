import TableGrid.Proofs.Table.Content
import TableGrid.Proofs.Table.Roundtrip

/-!
# Contents that are stored, written and read again

A content stored in a table that was read is found again when the table is written and read, and
so are the contents of all other cells.  Two kinds of content are lost.  A number that is not finite
has no text of its own.  An empty content in a patch of the data block is written as `null`, which
is not told from a patch without content when it is read, so that the literal cell below shows
again.

## Key results

- `Writable.read_print`: what is read of the text of a table
- `Storable.content_readBack_setContent_of_ne`, `Storable.content_readBack_setContent_iff`: which
  contents are lost
- `content_parse_print_setContent`: a content stored, written and read again
-/

namespace TableGrid

variable {d : Nat}

namespace Overlay

variable {o : Overlay} {p : Coord}

theorem readBack_empty : empty.readBack = empty := by
  apply ext_get?
  intro key
  rw [get?_readBack, get?_empty]
  rfl

theorem contentAt?_readBack (o : Overlay) (p : Coord) :
    o.readBack.contentAt? p = (o.getAt? p).bind fun e => e.readBack.content? := by
  rw [contentAt?, getAt?, get?_readBack, getAt?]
  cases o.get? p.address <;> rfl

end Overlay

/-- With nothing below an entry, a content that is lost reads as an empty one. -/
theorem Entry.getD_content?_readBack (e : Entry) :
    e.readBack.content?.getD .empty = (e.content?.getD .empty).readBack := by
  cases e with
  | plain c => rfl
  | styled patch =>
    show (patch.content.bind _).getD .empty = (patch.content.getD .empty).readBack
    cases patch.content with
    | none => rfl
    | some c => by_cases h : c.readBack = .empty <;> simp [h]

/-- A patch loses an empty content, and then what is below it shows. -/
theorem Entry.getD_content?_readBack_styled (patch : Patch) (c : Content) {below : Content}
    (hbelow : below.readBack = below) :
    ((styled patch).setContent c).readBack.content?.getD below = c ↔
      c.Storable ∧ (c = .empty → below = .empty) := by
  rw [← Content.readBack_eq_self_iff]
  change ((if c.readBack = .empty then none else some c.readBack : Option Content).getD below) = c ↔
    _
  by_cases hlost : c.readBack = .empty
  -- What is below is not lost itself, so it can be the content stored only if both are empty.
  · rw [if_pos hlost, Option.getD_none]
    constructor
    · rintro rfl
      exact ⟨hbelow, id⟩
    · rintro ⟨hkept, hempty⟩
      obtain rfl : c = .empty := hkept.symm.trans hlost
      exact hempty rfl
  · rw [if_neg hlost, Option.getD_some]
    refine (and_iff_left ?_).symm
    rintro rfl
    exact absurd rfl hlost

namespace Table

variable {t : Table} {p q : Coord} {c : Content}

/-! ## Contents that are read again -/

theorem blockOverlay_readBack (t : Table) : t.readBack.blockOverlay = t.blockOverlay.readBack := by
  show ((t.block.map DataBlock.readBack).map DataBlock.overlay).getD .empty =
    ((t.block.map DataBlock.overlay).getD .empty).readBack
  cases t.block with
  | none => exact Overlay.readBack_empty.symm
  | some b => rfl

theorem literal?_readBack (t : Table) (p : Coord) :
    t.readBack.literal? p = (t.literal? p).map Entry.readBack := by
  show (((t.rows.map Row.readBack)[p.row]?).bind fun row => row.cells[p.col]?) =
    ((t.rows[p.row]?).bind fun row => row.cells[p.col]?).map Entry.readBack
  rw [List.getElem?_map]
  cases t.rows[p.row]? with
  | none => rfl
  | some row => exact List.getElem?_map

theorem literalContent_readBack (t : Table) (p : Coord) :
    t.readBack.literalContent p = (t.literalContent p).readBack := by
  rw [literalContent, literal?_readBack, literalContent]
  cases t.literal? p with
  | none => rfl
  | some e => exact e.getD_content?_readBack

/-- Where the contents come from that are read again. -/
theorem content_readBack (t : Table) (p : Coord) :
    t.readBack.content p = ((t.blockOverlay.getAt? p).bind fun e => e.readBack.content?).getD
      (t.literalContent p).readBack := by
  rw [content_eq, blockOverlay_readBack, Overlay.contentAt?_readBack, literalContent_readBack]

/-- A table that can be written has no content that would be lost. -/
theorem Storable.content_readBack_eq (h : t.Storable d) (p : Coord) :
    t.readBack.content p = t.content p := by
  rw [h.readBack_eq]
  rfl

theorem Storable.readBack_literalContent (h : t.Storable d) (p : Coord) :
    (t.literalContent p).readBack = t.literalContent p := by
  rw [← literalContent_readBack, h.readBack_eq]
  rfl

/-! ## Storing a content -/

theorem forall_mem_modify_padTo {α : Type} {P : α → Prop} {i : Nat} {item : α} {items : List α}
    {f : α → α} (hitem : P item) (hitems : ∀ x ∈ items, P x) (hf : ∀ x, P x → P (f x)) :
    ∀ x ∈ (padTo (i + 1) item items).modify i f, P x := by
  -- Items in front of the index, and the one at it, are old ones or come from the extension.
  have hget (j : Nat) : P (items[j]?.getD item) := by
    cases hj : items[j]? with
    | none => exact hitem
    | some x => exact hitems x (List.mem_of_getElem? hj)
  intro x hx
  obtain ⟨j, hj⟩ := List.mem_iff_getElem?.1 hx
  rw [getElem?_modify_padTo] at hj
  split at hj
  · obtain rfl := Option.some.inj hj
    exact hf _ (hget j)
  · split at hj
    · obtain rfl := Option.some.inj hj
      exact hget j
    · exact hitems x (List.mem_of_getElem? hj)

theorem Writable.setContent (h : t.Writable d) (p : Coord) (c : Content) :
    (t.setContent p c).Writable d := by
  rcases setContent_cases t p c with ⟨block, hblock, -, heq⟩ | ⟨-, heq⟩
  · rw [heq]
    refine ⟨h.rest, h.rows, ?_⟩
    rintro b hb
    obtain rfl := Option.some.inj hb
    have hoverlay : block.overlay = t.blockOverlay := by
      rw [blockOverlay, overlay?, hblock]
      rfl
    rw [← hoverlay]
    exact (h.block block hblock).setContent p c
  · rw [heq]
    refine ⟨h.rest, ?_, h.block⟩
    refine forall_mem_modify_padTo ⟨by simp, Attributes.storable_empty⟩ h.rows fun r hr => ?_
    refine ⟨forall_mem_modify_padTo trivial hr.cells fun e he => ?_, hr.attributes⟩
    exact he.setContent c

/-- What is stored for a cell afterwards: the same entry with another content, or a literal one. -/
theorem getAt?_setContent_cases (t : Table) (p : Coord) (c : Content) :
    (∃ e, t.blockOverlay.getAt? p = some e ∧
      (t.setContent p c).blockOverlay.getAt? p = some (e.setContent c) ∧
      (t.setContent p c).literalContent p = t.literalContent p) ∨
    (t.blockOverlay.getAt? p = none ∧ (t.setContent p c).blockOverlay.getAt? p = none ∧
      (t.setContent p c).literalContent p = c) := by
  rcases setContent_cases t p c with ⟨block, -, hsome, heq⟩ | ⟨hnone, heq⟩
  · obtain ⟨e, he⟩ := Option.isSome_iff_exists.1 hsome
    refine .inl ⟨e, he, ?_, by rw [heq]; rfl⟩
    rw [heq]
    show (t.blockOverlay.setContent p c).get? p.address = _
    rw [Overlay.get?_setContent, if_pos rfl, he]
    rfl
  · refine .inr ⟨hnone, by rw [heq]; exact hnone, ?_⟩
    rw [heq, literalContent_setLiteral, if_pos rfl]

/-- The contents of other cells are read again. -/
theorem Storable.content_readBack_setContent_of_ne (h : t.Storable d) (c : Content) (hne : p ≠ q) :
    (t.setContent p c).readBack.content q = t.content q := by
  -- What is stored for the other cell is what has been stored, and that has been read.
  have hstored : (t.setContent p c).blockOverlay.getAt? q = t.blockOverlay.getAt? q ∧
      (t.setContent p c).literalContent q = t.literalContent q := by
    rcases setContent_cases t p c with ⟨block, -, -, heq⟩ | ⟨-, heq⟩
    · rw [heq]
      exact ⟨Overlay.getAt?_setContent_of_ne _ c hne, rfl⟩
    · rw [heq, literalContent_setLiteral, if_neg hne]
      exact ⟨rfl, rfl⟩
  rw [content_readBack, hstored.1, hstored.2, ← content_readBack, h.content_readBack_eq]

/-- The content of the cell is read again unless it is a number that is not finite, or is empty and
    stored in a patch above a literal cell that is not. -/
theorem Storable.content_readBack_setContent_iff (h : t.Storable d) (p : Coord) (c : Content) :
    (t.setContent p c).readBack.content p = c ↔
      c.Storable ∧ (c = .empty → ∀ patch, t.blockOverlay.getAt? p = some (.styled patch) →
        t.literalContent p = .empty) := by
  have hbelow := h.readBack_literalContent p
  rw [content_readBack]
  rcases getAt?_setContent_cases t p c with ⟨e, he, hget, hliteral⟩ | ⟨hnone, hget, hliteral⟩
  · rw [hget, hliteral, hbelow, he]
    cases e with
    | plain _ =>
      simp [Entry.setContent, Entry.readBack, Entry.content?, Content.readBack_eq_self_iff]
    | styled patch => simpa using Entry.getD_content?_readBack_styled patch c hbelow
  · simp [hget, hliteral, hnone, Content.readBack_eq_self_iff]

/-! ## Texts -/

/-- What is read of the text of a table, if its binary numbers are read from what is written of
    them. -/
theorem Writable.read_print (h : t.Writable (Json.maxDepth - 5))
    (hbinaries : ∀ x ∈ t.toJson.binaries, (Json.Number.binary x).ReadsBack) :
    parse t.print = .ok t.readBack := by
  have hread : Json.parseAs? shape t.print = some t.toJson :=
    (h.readable_toJson hbinaries).parseAs?_pretty
  rw [parse, hread, Option.bind_some, h.ofJson?_toJson]

theorem storable_of_parse {text : String} (h : parse text = .ok t) :
    t.Storable (Json.maxDepth - 5) := by
  obtain ⟨j, hj, ht⟩ := parse_eq_ok h
  exact storable_of_ofJson? (Json.fits_of_parseAs? hj) ht

/-- Store a content in a table that was read, write the table and read it again.  All other cells
    have the contents that they had, and the cell has the content that was stored unless that is a
    number that is not finite, or is empty and stored in a patch of the data block above a literal
    cell that is not. -/
theorem content_parse_print_setContent {text : String} (h : parse text = .ok t) (p : Coord)
    (c : Content)
    (hbinaries : ∀ x ∈ (t.setContent p c).toJson.binaries, (Json.Number.binary x).ReadsBack) :
    ∃ t', parse (t.setContent p c).print = .ok t' ∧ (∀ q, q ≠ p → t'.content q = t.content q) ∧
      (t'.content p = c ↔
        c.Storable ∧ (c = .empty → ∀ patch, t.blockOverlay.getAt? p = some (.styled patch) →
          t.literalContent p = .empty)) := by
  have hstorable := storable_of_parse h
  refine ⟨_, (hstorable.writable.setContent p c).read_print hbinaries, fun q hne => ?_, ?_⟩
  · exact hstorable.content_readBack_setContent_of_ne c hne.symm
  · exact hstorable.content_readBack_setContent_iff p c

/-- A table with a literal cell and a patch for the same cell in the data block. -/
def styledText : String :=
  "\x7b\"rows\":[\x7b\"row\":[\"y\"]\x7d],\"tabledatablock\":" ++
    "\x7b\"cells\":\x7b\"A1\":\x7b\"cell\":\"x\",\"color\":\"red\"\x7d\x7d\x7d\x7d"

theorem exists_parse_of_any (text : String) (test : Table → Bool)
    (h : (parse text).toOption.any test = true) : ∃ t, parse text = .ok t ∧ test t = true := by
  cases hparse : parse text with
  | ok t =>
    rw [hparse] at h
    exact ⟨t, rfl, h⟩
  | error _ =>
    rw [hparse] at h
    cases h

/-- A text stored in the patch is read again. -/
theorem content_parse_print_setContent_text :
    ∃ t t', parse styledText = .ok t ∧ parse (t.setContent ⟨0, 0⟩ (.text "z")).print = .ok t' ∧
      t'.content ⟨0, 0⟩ = .text "z" := by
  obtain ⟨t, h, hbinaries⟩ := exists_parse_of_any styledText
    (fun t => (t.setContent ⟨0, 0⟩ (.text "z")).toJson.binaries = []) (by decide +kernel)
  obtain ⟨t', h', -, hiff⟩ := content_parse_print_setContent h ⟨0, 0⟩ (.text "z")
    (by simp [of_decide_eq_true hbinaries])
  exact ⟨t, t', h, h', hiff.2 ⟨trivial, nofun⟩⟩

/-- An empty content stored in the patch is lost: the literal cell shows again. -/
theorem content_parse_print_setContent_empty :
    ∃ t t', parse styledText = .ok t ∧ parse (t.setContent ⟨0, 0⟩ .empty).print = .ok t' ∧
      t'.content ⟨0, 0⟩ = .text "y" := by
  obtain ⟨t, h, htest⟩ := exists_parse_of_any styledText
    (fun t => (t.setContent ⟨0, 0⟩ .empty).toJson.binaries = [] ∧
      (t.setContent ⟨0, 0⟩ .empty).readBack.content ⟨0, 0⟩ = .text "y") (by decide +kernel)
  obtain ⟨hbinaries, hcontent⟩ := of_decide_eq_true htest
  have hwritable := (storable_of_parse h).writable.setContent ⟨0, 0⟩ .empty
  exact ⟨t, _, h, hwritable.read_print (by simp [hbinaries]), hcontent⟩

end Table

end TableGrid
