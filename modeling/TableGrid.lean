import TableGrid.Main
import TableGrid.Service.Connection
import TableGrid.Proofs.Coord.Address
import TableGrid.Proofs.List
import TableGrid.Proofs.Overlay.Entries
import TableGrid.Proofs.Content
import TableGrid.Proofs.Engine.Action
import TableGrid.Proofs.Engine.Answers
import TableGrid.Proofs.Engine.Document
import TableGrid.Proofs.Engine.Session
import TableGrid.Proofs.Grid.Merge
import TableGrid.Proofs.Grid.Reshape
import TableGrid.Proofs.Cursor.Runs
import TableGrid.Proofs.Grid.Line
import TableGrid.Proofs.Cursor.Cycle
import TableGrid.Proofs.Json.Canonical
import TableGrid.Proofs.Json.Members
import TableGrid.Proofs.Style.Attributes
import TableGrid.Proofs.Decimal.Finite
import TableGrid.Proofs.Json.Fits
import TableGrid.Proofs.Range.Rule
import TableGrid.Proofs.Range.Spelling
import TableGrid.Proofs.Cell.Patch
import TableGrid.Proofs.Table.Parts
import TableGrid.Proofs.Table.Roundtrip
import TableGrid.Proofs.Json.Tokens
import TableGrid.Proofs.Json.Pretty
import TableGrid.Proofs.Engine.Delivery
import TableGrid.Proofs.Engine.Refusal
import TableGrid.Proofs.Engine.Rebuild
import TableGrid.Proofs.Table.Persistence
import TableGrid.Proofs.Engine.Rows
import TableGrid.Proofs.Engine.Phase
import TableGrid.Proofs.Grid.Precedence
import TableGrid.Proofs.Cursor.Lock
import TableGrid.Proofs.Cursor.Leaving
import TableGrid.Proofs.Engine.Looking
import TableGrid.Proofs.Engine.Rejection
import TableGrid.Proofs.Grid.Write
import TableGrid.Proofs.Engine.Enter
import TableGrid.Proofs.Table.Compose
import TableGrid.Proofs.Grid.Edit
import TableGrid.Proofs.Style.Cascade
import TableGrid.Proofs.Grid.Layers
import TableGrid.Proofs.Grid.Restyle
import TableGrid.Proofs.Engine.Attribute
import TableGrid.Proofs.Coord.Spelling
import TableGrid.Proofs.Range.Place
import TableGrid.Proofs.Style.Reload
import TableGrid.Proofs.Range.Reload
import TableGrid.Proofs.Grid.Chain
import TableGrid.Proofs.Cell.Attribute
import TableGrid.Proofs.Text.Integer
