/-
  CqlToSql.Document.Selection
  ───────────────────────────
  The two parts of a compiled query: which records are selected and in which
  order.
-/

namespace CqlToSql

/-- The bodies of a `WHERE` and an `ORDER BY` clause; an empty body stands for
a clause that is not there. -/
structure Selection where
  condition : String
  order : String
  deriving Repr, DecidableEq, Inhabited

/-- The clauses as SQL. -/
def Selection.render (s : Selection) : String :=
  let condition := if s.condition = "" then "" else "WHERE " ++ s.condition
  let order := if s.order = "" then "" else "ORDER BY " ++ s.order
  let space := if s.condition = "" ∨ s.order = "" then "" else " "
  condition ++ space ++ order

end CqlToSql
