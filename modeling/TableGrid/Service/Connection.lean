import TableGrid.Service.Basic

/-! # Documents behind a connection

A document may be reached through a connection that wraps what it stores, refuses
requests, or leaves them unanswered.  Requests that are refused or unanswered never touch
the document.
-/

namespace TableGrid

/-- How requests fare. -/
inductive ConnectionMode where
  /-- All requests are answered. -/
  | up
  /-- Contents are stored as paragraphs. -/
  | wrapping
  /-- All requests are refused. -/
  | down
  /-- All requests but loading are refused. -/
  | readOnly
  /-- No request is answered. -/
  | silent
  /-- No request but loading is answered. -/
  | silentWrites
deriving DecidableEq, Repr

/-- A document and the connection to it. -/
structure Connection where
  document : Table
  mode : ConnectionMode
deriving DecidableEq

namespace Connection

/-- A content as a paragraph of its text. -/
def paragraph (c : Content) : Content := .text ("<p>" ++ c.display ++ "</p>")

/-- Pass a request on to the document. -/
def forward {α : Type} (request : Table → Reply α × Table) (c : Connection) :
    Reply α × Connection :=
  let (reply, document) := request c.document
  (reply, { c with document })

/-- A request that changes the document, as far as the connection lets it through. -/
def write {α : Type} (request : Table → Reply α × Table) (c : Connection) :
    Reply α × Connection :=
  match c.mode with
  | .up | .wrapping => c.forward request
  | .down | .readOnly => (.failed .unreachable, c)
  | .silent | .silentWrites => (.unanswered, c)

/-- A request that only looks at the document. -/
def read {α : Type} (request : Table → Reply α × Table) (c : Connection) :
    Reply α × Connection :=
  match c.mode with
  | .up | .wrapping | .readOnly | .silentWrites => c.forward request
  | .down => (.failed .unreachable, c)
  | .silent => (.unanswered, c)

/-- The service of a document behind a connection. -/
def service : Service Connection where
  save p content c :=
    let stored := if c.mode = .wrapping then paragraph content else content
    c.write (Document.service.save p stored)
  load p c := c.read (Document.service.load p)
  reshape r c := c.write (Document.service.reshape r)

end Connection

end TableGrid
