import TableGrid.Engine.Basic

/-! # Changing the shape of an open table

A change of shape is a request to the service.  While it waits, the grid is stale; selection,
editor and saves under way are given up.  The answer is the whole table, on which the local
overlay, moved along, is laid again.  When the service refuses, the last grid is good again.
-/

namespace TableGrid.Engine

variable {σ : Type}

/-- The engine while a change of shape waits for its answer. -/
def awaitingShape (e : Engine σ) : Engine σ :=
  { e with stale := true, saves := e.saves.clear, cursor := .cleared, editor := .selected }

/-- Change the shape of the table through the service. -/
def reshape (service : Service σ) (r : Reshape) : Action σ Unit := do
  modify awaitingShape
  match ← ask (service.reshape r) with
  | .ok table => modify fun e => rebuilt { e with table, overlay := e.overlay.reshape r }
  | .error cause =>
    modify fun e => { e with stale := false }
    fail (.reshapeFailed r cause)

/-- Insert a row before an index, or behind the last row of the table. -/
def addRow (service : Service σ) (index? : Option Nat) : Action σ Unit := do
  reshape service (.insertRow (index?.getD (← get).table.extent.1))

/-- Remove a row, or the last row of the table.  A grid of fewer than two rows is left alone. -/
def removeRow (service : Service σ) (index? : Option Nat) : Action σ Unit := do
  let e ← get
  if 2 ≤ e.grid.height then
    reshape service (.removeRow (index?.getD (e.table.extent.1 - 1)))

/-- Insert a column before an index, or behind the last column of the table. -/
def addColumn (service : Service σ) (index? : Option Nat) : Action σ Unit := do
  reshape service (.insertColumn (index?.getD (← get).table.extent.2))

/-- Remove a column, or the last column of the table. -/
def removeColumn (service : Service σ) (index? : Option Nat) : Action σ Unit := do
  reshape service (.removeColumn (index?.getD ((← get).table.extent.2 - 1)))

end TableGrid.Engine
