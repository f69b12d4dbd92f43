import TableGrid.Proofs.Overlay.Entries

/-!
# Contents in an overlay

`Overlay.contentAt?` is the content that the entry under the address of a cell carries.  Recording
a content sets it for one cell.  Attributes do not touch it, although an entry goes with its
attributes if it carries nothing else, and they touch no entry but that of their cell.

## Key results

- `contentAt?_setContent`, `contentAt?_setContent_of_ne`: recording a content
- `contentAt?_setAttribute`, `contentAt?_clearAttribute`, `contentAt?_clearAttributes`: attributes
  are no contents
- `erase_setAttribute`, `erase_clearAttribute`, `erase_clearAttributes`: other entries stay
-/

namespace TableGrid

namespace Patch

theorem content_setAttribute (patch : Patch) {name : String} (h : name ≠ "cell") (text : String) :
    (patch.setAttribute name text).content = patch.content := by
  rw [setAttribute, if_neg h]
  repeat' split
  all_goals rfl

theorem content_removeAttribute (patch : Patch) (name : String) :
    (patch.removeAttribute name).content = patch.content := by
  unfold removeAttribute
  repeat' split
  all_goals rfl

end Patch

namespace Overlay

variable {o : Overlay} {p q : Coord}

/-- The content that the entry under the address of a cell carries. -/
def contentAt? (o : Overlay) (p : Coord) : Option Content := (o.getAt? p).bind Entry.content?

theorem contentAt?_insert (o : Overlay) (p : Coord) (entry : Entry) (q : Coord) :
    (o.insert p.address entry).contentAt? q =
      if p.address = q.address then entry.content? else o.contentAt? q := by
  rw [contentAt?, getAt?, get?_insert]
  split <;> rfl

/-! ## Recording contents -/

theorem contentAt?_setContent_eq_ite (o : Overlay) (p : Coord) (c : Content) (q : Coord) :
    (o.setContent p c).contentAt? q =
      if p.address = q.address then some c else o.contentAt? q := by
  rw [setContent_eq, contentAt?_insert]
  split
  · cases o.getAt? p with
    | none => rfl
    | some entry => cases entry <;> rfl
  · rfl

/-- The entry of a cell carries the content that was recorded for it. -/
theorem contentAt?_setContent (o : Overlay) (p : Coord) (c : Content) :
    (o.setContent p c).contentAt? p = some c := by
  rw [contentAt?_setContent_eq_ite, if_pos rfl]

theorem contentAt?_setContent_of_ne (o : Overlay) (c : Content) (hne : p ≠ q) :
    (o.setContent p c).contentAt? q = o.contentAt? q := by
  rw [contentAt?_setContent_eq_ite, if_neg fun heq => hne (Coord.address_injective heq)]

theorem isSome_contentAt?_setContent (c : Content) (h : (o.contentAt? q).isSome) :
    ((o.setContent p c).contentAt? q).isSome := by
  rw [contentAt?_setContent_eq_ite]
  split
  · rfl
  · exact h

/-! ## Attributes -/

/-- Setting an attribute keeps whatever else the entry carries. -/
theorem setAttribute_eq (o : Overlay) (p : Coord) (name text : String) :
    o.setAttribute p name text = o.insert p.address
      (.styled (((o.getAt? p).elim .empty Entry.toPatch).setAttribute name (reduceHash text))) := by
  unfold setAttribute
  cases o.getAt? p <;> rfl

/-- An attribute is no content, unless it has the name that stands for one. -/
theorem contentAt?_setAttribute (o : Overlay) (p : Coord) {name : String} (h : name ≠ "cell")
    (text : String) (q : Coord) : (o.setAttribute p name text).contentAt? q = o.contentAt? q := by
  rw [setAttribute_eq, contentAt?_insert]
  split
  · rename_i heq
    obtain rfl := Coord.address_injective heq
    rw [Entry.content?, Patch.content_setAttribute _ h, contentAt?]
    cases o.getAt? p with
    | none => rfl
    | some entry => cases entry <;> rfl
  · rfl

theorem contentAt?_clearAttribute (o : Overlay) (p : Coord) (name : String) (q : Coord) :
    (o.clearAttribute p name).contentAt? q = o.contentAt? q := by
  unfold clearAttribute
  split
  · rename_i patch hentry
    rw [contentAt?_insert]
    split
    · rename_i heq
      obtain rfl := Coord.address_injective heq
      rw [Entry.content?, Patch.content_removeAttribute, contentAt?, hentry]
      rfl
    · rfl
  · rfl

/-- Only an entry without content goes with its attributes. -/
theorem contentAt?_clearAttributes (o : Overlay) (p q : Coord) :
    (o.clearAttributes p).contentAt? q = o.contentAt? q := by
  unfold clearAttributes
  split
  · rename_i patch hentry
    have hat : o.contentAt? p = patch.content := by
      rw [contentAt?, hentry]
      rfl
    split
    · rename_i c hcontent
      rw [contentAt?_insert]
      split
      · rename_i heq
        obtain rfl := Coord.address_injective heq
        rw [hat, hcontent, Entry.content?]
      · rfl
    · rename_i hnone
      rw [contentAt?, getAt?, get?_erase]
      split
      · rename_i heq
        obtain rfl := Coord.address_injective heq
        rw [hat, hnone]
        rfl
      · rfl
  · rfl

/-- No attribute takes a content away. -/
theorem isSome_contentAt?_setAttribute (name text : String) (h : (o.contentAt? q).isSome) :
    ((o.setAttribute p name text).contentAt? q).isSome := by
  by_cases hname : name = "cell"
  · rw [setAttribute_eq, contentAt?_insert, hname]
    split
    · rfl
    · exact h
  · rwa [contentAt?_setAttribute o p hname]

/-! ## Other entries -/

theorem erase_setAttribute (o : Overlay) (p : Coord) (name text : String) :
    (o.setAttribute p name text).erase p.address = o.erase p.address := by
  rw [setAttribute_eq, erase_insert]

theorem erase_clearAttribute (o : Overlay) (p : Coord) (name : String) :
    (o.clearAttribute p name).erase p.address = o.erase p.address := by
  unfold clearAttribute
  split
  · exact erase_insert o p.address _
  · rfl

theorem erase_clearAttributes (o : Overlay) (p : Coord) :
    (o.clearAttributes p).erase p.address = o.erase p.address := by
  unfold clearAttributes
  split
  · split
    · exact erase_insert o p.address _
    · exact erase_erase o p.address
  · rfl

end Overlay

end TableGrid
