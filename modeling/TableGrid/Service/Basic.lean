import TableGrid.Error
import TableGrid.Table.Basic

/-! # Document services

A table is persisted through a `Service`, which keeps its own state: it stores and loads
contents and reshapes the stored table.  Each request is answered, refused or never answered
at all.  `Document.service` is the plain one, which keeps a table.
-/

namespace TableGrid

/-- Why a service refuses a request. -/
inductive ServiceFailure where
  | refused (cause : TableError)
  | unreachable
deriving DecidableEq, Repr

/-- The wording of a refusal. -/
def ServiceFailure.message : ServiceFailure → String
  | .refused cause => cause.message
  | .unreachable => "service unreachable"

/-- What becomes of a request. -/
inductive Reply (α : Type) where
  | answered (value : α)
  | failed (cause : ServiceFailure)
  | unanswered
deriving DecidableEq, Repr

/-- A document service whose state is a `σ`. -/
structure Service (σ : Type) where
  /-- Store a content and answer with what was stored. -/
  save : Coord → Content → σ → Reply Content × σ
  /-- Answer with the stored content of a cell. -/
  load : Coord → σ → Reply Content × σ
  /-- Insert or remove a row or column and answer with the whole table. -/
  reshape : Reshape → σ → Reply Table × σ

namespace Document

/-- The service that keeps a table. -/
def service : Service Table where
  save p c t := (.answered c, t.setContent p c)
  load p t := (.answered (t.content p), t)
  reshape r t :=
    match t.reshape r with
    | .ok t' => (.answered t', t')
    | .error cause => (.failed (.refused cause), t)

end Document

end TableGrid
