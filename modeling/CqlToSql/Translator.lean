/-
  CqlToSql.Translator
  ───────────────────
  **Translators of queries.**  A translator knows the document columns that
  queries run against, the declared tables, the indexes that a term alone
  searches, and how liberally other tables may be addressed.

      t.condition q   — a query as one SQL condition
      t.selection q   — a query as condition and order
-/
import CqlToSql.Condition.Tree

namespace CqlToSql

open CqlToSql.Text

/-- A translator of queries. -/
structure Translator where
  /-- Document columns; the first is the default and names the table. -/
  columns : List String
  schema : Schema := {}
  serverChoice : List String := []
  mode : JoinMode := .strict
  deriving Repr, DecidableEq, Inhabited

namespace Translator

/-! ## §1. Making translators. -/

/-- Column names without the blanks around them; none may be empty. -/
def trimColumns : List String → Except Fault (List String)
  | [] => .ok []
  | c :: cs =>
    if trim c = "" then .error (.column .emptyName)
    else
      match trimColumns cs with
      | .error fault => .error fault
      | .ok rest => .ok (trim c :: rest)

/-- The translator for queries on the columns. -/
def ofColumns (columns : List String) : Except Fault Translator :=
  if columns.isEmpty then .error (.column .noColumn)
  else (trimColumns columns).map fun columns => { columns }

/-- The first thing that is wrong with server choice indexes, which are
counted from `number`. -/
def checkChoice (number : Nat) : List String → Except Fault Unit
  | [] => .ok ()
  | index :: rest =>
    if isAllBlank index then .error (.choice (.empty number))
    else if index.toList.contains '"' || index.toList.contains '\'' then
      .error (.choice (.quote number index))
    else checkChoice (number + 1) rest

/-- The translator with these server choice indexes. -/
def withServerChoice (t : Translator) (indexes : List String) : Except Fault Translator :=
  (checkChoice 1 indexes).map fun _ => { t with serverChoice := indexes }

/-- The table that queries run against. -/
def tableName (t : Translator) : String := (t.columns.head?.map tableOfColumn).getD ""

/-! ## §2. Translating. -/

/-- What clauses of a query are compiled against. -/
def scope (t : Translator) : Scope := .ofColumns t.columns t.schema t.serverChoice t.mode

/-- A query as one SQL condition. -/
def condition (t : Translator) (q : Query) : Logged String := do
  let sql ← Condition.query t.scope q
  Logged.write .debug ("CQL " ++ q.render ++ " generated SQL " ++ sql)
  pure sql

/-- A query as condition and order. -/
def selection (t : Translator) (q : Query) : Logged Selection := do
  let selection ← Condition.selection t.scope q
  Logged.write .debug ("CQL " ++ q.render ++ " generated SQL " ++ selection.render)
  pure selection

/-- The query tree of a query text. -/
def parse (text : String) : Logged Query := Logged.ofExcept ((Query.parse text).mapError .parse)

/-- A query text as one SQL condition. -/
def conditionOf (t : Translator) (text : String) : Logged String := parse text >>= t.condition

/-- A query text as condition and order. -/
def selectionOf (t : Translator) (text : String) : Logged Selection := parse text >>= t.selection

end Translator

end CqlToSql
