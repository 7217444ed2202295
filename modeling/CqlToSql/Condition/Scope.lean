/-
  CqlToSql.Condition.Scope
  ────────────────────────
  **What a clause is compiled against**: the table whose records are searched,
  the columns that hold its documents, and all that is declared about the
  database.  Joining another table moves the scope to that table and keeps
  the rest.
-/
import CqlToSql.Document.Path
import CqlToSql.Schema.FieldIndexes

namespace CqlToSql

open CqlToSql.Text

/-- Which side of a clause may address another table. -/
inductive JoinMode where
  /-- Only the index. -/
  | strict
  /-- The index, or else the search term. -/
  | permissive
  deriving Repr, DecidableEq, Inhabited

/-- What a clause is compiled against. -/
structure Scope where
  /-- The table whose records are searched. -/
  table : String
  /-- Columns that hold documents; the first is the default. -/
  columns : List String
  schema : Schema
  /-- Indexes searched by a term that stands alone. -/
  serverChoice : List String
  mode : JoinMode
  deriving Repr, DecidableEq, Inhabited

/-- The table of a document column: the part before its last dot, without
what stands before that part, or the whole name if it has no dot. -/
def tableOfColumn (column : String) : String :=
  match (splitAt '.' column).reverse with
  | _ :: table :: _ => table
  | _ => column

namespace Scope

/-- The scope of the table that the first column belongs to. -/
def ofColumns (columns : List String) (schema : Schema) (serverChoice : List String)
    (mode : JoinMode) : Scope :=
  { table := (columns.head?.map tableOfColumn).getD "", columns, schema, serverChoice, mode }

/-- The scope moved to another table. -/
def forTable (s : Scope) (table : String) : Scope :=
  { s with table, columns := [table ++ "." ++ documentColumn] }

/-- The default document column. -/
def column (s : Scope) : String := s.columns.headD ""

/-- The column that an index addresses and the path inside it. -/
def resolve (s : Scope) (index : String) : String × String :=
  if s.columns.length > 1 then selectColumn s.columns index else (s.column, index)

/-- The declared indexes of a field of the table. -/
def indexes (s : Scope) (index : String) : FieldIndexes :=
  s.schema.fieldIndexes s.table (s.resolve index).2

/-- The SQL expressions of a field of the table.  A name with a single quote
is refused, because it could not stand in an SQL literal. -/
def field (s : Scope) (index : String) : Except Fault Field :=
  if index.toList.contains '\'' then .error (.query (.quotedIndex index))
  else
    let (column, path) := s.resolve index
    .ok ((Field.at column path).withExpression column (s.indexes index).withExpression)

end Scope

end CqlToSql
