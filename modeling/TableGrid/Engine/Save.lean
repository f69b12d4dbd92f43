import TableGrid.Engine.Basic

/-! # Saving contents

A save begins by showing the content at once and issuing a ticket for it, and ends when the
service has answered.  The answer is brought in only for the newest ticket of the cell, and
only while the cell still shows what the ticket brought there.  When the service refuses,
what was shown before comes back.
-/

namespace TableGrid.Engine

variable {σ : Type}

/-- Show a content at once and issue a ticket for saving it. -/
def beginSave (p : Coord) (c : Content) : Action σ Ticket := do
  ensureFresh
  let e ← get
  let _ ← ofExcept .table (e.grid.cell p)
  let (ticket, saves) := e.saves.issue p c
  set { e with
    grid := e.grid.setContent p c
    overlay := e.overlay.setContent p c
    saves }
  return ticket

/-- Whether a cell shows a content. -/
def shows (e : Engine σ) (p : Coord) (c : Content) : Bool :=
  match e.grid.get? p with
  | some cell => cell.content.agrees c
  | none => false

/-- Take the answer to a ticket. -/
def finishSave (ticket : Ticket) (persisted : Content) : Action σ SaveOutcome := do
  let e ← get
  let accepted := e.saves.isLatest ticket && !e.stale && e.shows ticket.coord ticket.content
  let e := { e with saves := e.saves.complete ticket }
  if !accepted then
    set e
    return .superseded
  else if persisted.agrees ticket.content then
    set e
    return .applied persisted
  else
    set { e with
      grid := e.grid.setContent ticket.coord persisted
      overlay := e.overlay.setContent ticket.coord persisted }
    return .applied persisted

/-- Drop a ticket. -/
def abandonSave (ticket : Ticket) : Action σ Unit :=
  modify fun e => { e with saves := e.saves.complete ticket }

/-- Bring back what a cell showed and what the overlay had for it. -/
def restored (e : Engine σ) (p : Coord) (shown : Option Cell) (entry : Option Entry) :
    Engine σ :=
  { e with
    grid := match shown with
      | some cell => e.grid.setContent p cell.content
      | none => e.grid
    overlay := match entry with
      | some entry => e.overlay.insert p.address entry
      | none => e.overlay.erase p.address }

/-- Save a content through the service. -/
def save (service : Service σ) (p : Coord) (c : Content) : Action σ SaveOutcome := do
  let before ← get
  let ticket ← beginSave p c
  match ← ask (service.save p ticket.content) with
  | .ok persisted => finishSave ticket persisted
  | .error cause =>
    let e ← get
    let restores := e.saves.isLatest ticket && !e.stale
    let e := { e with saves := e.saves.complete ticket }
    set (if restores then e.restored p (before.grid.get? p) (before.overlay.getAt? p) else e)
    fail (.saveFailed p cause)

end TableGrid.Engine
