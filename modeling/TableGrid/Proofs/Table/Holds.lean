import TableGrid.Proofs.Table.Reshape

/-!
# Tables that hold what an overlay records

An overlay on top of a table that has stored everything the overlay records does not change what is
shown.  `Table.Holds` says so entry by entry, and goes through each edit that is made to both.

## Key results

- `Holds.setContent`: a content stored and recorded
- `Holds.reshape`: a change of shape of both
-/

namespace TableGrid

namespace Table

variable {t t' : Table} {o : Overlay}

/-- Whether a table has an entry for each cell that an overlay mentions, with the content that the
    overlay has for it, and both have canonical keys. -/
structure Holds (t : Table) (o : Overlay) : Prop where
  block : t.blockOverlay.Canonical
  canonical : o.Canonical
  stored : ∀ p, o.Mentions p → t.Stored p
  content : ∀ p c, p.Fits → o.contentAt? p = some c → t.content p = c

theorem holds_empty (h : t.blockOverlay.Canonical) : t.Holds .empty where
  block := h
  canonical := Overlay.canonical_empty
  stored := by
    rintro p ⟨key, entry, hget, -⟩
    rw [Overlay.get?_empty] at hget
    cases hget
  content := by
    intro p c _ hc
    rw [Overlay.contentAt?, Overlay.getAt?, Overlay.get?_empty] at hc
    cases hc

/-- A content stored in the table and recorded in the overlay. -/
theorem Holds.setContent (h : t.Holds o) {p : Coord} (c : Content) (hp : p.Fits) :
    (t.setContent p c).Holds (o.setContent p c) where
  block := canonical_setContent h.block p c
  canonical := h.canonical.setContent p c
  stored := by
    intro q hq
    rcases (Overlay.mentions_setContent o c hp).1 hq with hq | rfl
    · exact (h.stored q hq).setContent c hp
    · exact stored_setContent_self t c hp
  content := by
    intro q d hq hd
    rw [Overlay.contentAt?_setContent_eq_ite] at hd
    simp only [Coord.address_injective.eq_iff] at hd
    rw [content_setContent]
    split
    · rename_i heq
      rw [if_pos heq] at hd
      exact Option.some.inj hd
    · rename_i hne
      rw [if_neg hne] at hd
      exact h.content q d hq hd

/-- A change of shape of the table and of the overlay. -/
theorem Holds.reshape {r : Reshape} (h : t.Holds o) (hr : t.reshape r = .ok t') :
    t'.Holds (o.reshape r) where
  block := canonical_reshape hr
  canonical := Overlay.canonical_reshape o r
  stored := by
    intro q hq
    obtain ⟨p, hp, hmove⟩ := Overlay.mentions_reshape hq
    exact (h.stored p hp).reshape hr hmove hq.fits
  content := by
    intro q c hfits hc
    -- An entry for the cell comes from an entry for the cell that went there.
    have hmentions : (o.reshape r).Mentions q := by
      obtain ⟨entry, hentry, -⟩ := Option.bind_eq_some_iff.1 hc
      exact Overlay.mentions_of_getAt? hfits (by rw [hentry]; rfl)
    obtain ⟨p, hp, hmove⟩ := Overlay.mentions_reshape hmentions
    have hpfits := hp.fits
    rw [Overlay.contentAt?, h.canonical.getAt?_reshape hmove hpfits hfits] at hc
    rw [content_reshape hr h.block hmove hpfits hfits]
    exact h.content p c hpfits hc

end Table

end TableGrid
