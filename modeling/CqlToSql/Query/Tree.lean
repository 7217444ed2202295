/-
  CqlToSql.Query.Tree
  ───────────────────
  **Query trees.**  A query is a search clause, two queries under a boolean
  operator, or a query with sort keys:

      title == "dogs" and (author = smith) sortBy date/sort.descending

  `Query.render` writes a tree as query text again.
-/

namespace CqlToSql

/-! ## §1. The tree. -/

/-- A modifier of a relation or of a sort key, written `/name` or, with a
comparison and a value, `/name=value`. -/
structure Modifier where
  /-- Name as written, `@` included. -/
  name : String
  /-- Comparison symbol between name and value. -/
  comparison : Option String
  /-- Value the name is compared with. -/
  value : Option String
  deriving Repr, DecidableEq, Inhabited

/-- What stands between an index and a search term. -/
structure Relation where
  /-- Comparison symbol or word. -/
  base : String
  /-- Modifiers in the order they are written. -/
  modifiers : List Modifier
  deriving Repr, DecidableEq, Inhabited

/-- A search clause: an index, a relation and a search term. -/
structure Clause where
  /-- Name of the searched index. -/
  index : String
  /-- How index and term are compared. -/
  relation : Relation
  /-- Search term, with its backslash escapes as written. -/
  term : String
  deriving Repr, DecidableEq, Inhabited

/-- Boolean operators.  `not` means "and not". -/
inductive Operator where
  | and
  | or
  | not
  deriving Repr, DecidableEq, Inhabited

/-- An index to sort by. -/
structure SortKey where
  /-- Name of the index. -/
  index : String
  /-- Modifiers in the order they are written. -/
  modifiers : List Modifier
  deriving Repr, DecidableEq, Inhabited

/-- A query. -/
inductive Query where
  /-- A single search clause. -/
  | clause (c : Clause)
  /-- Two queries under a boolean operator. -/
  | boolean (operator : Operator) (left right : Query)
  /-- A query with sort keys. -/
  | sorted (query : Query) (keys : List SortKey)
  deriving Repr, DecidableEq, Inhabited

/-! ## §2. Indexes with a meaning of their own. -/

/-- The index that every record matches. -/
def allRecords : String := "cql.allRecords"

/-- The index of a search term that stands alone. -/
def serverChoice : String := "cql.serverChoice"

/-- The clause of a search term that stands alone. -/
def Clause.bare (term : String) : Clause :=
  { index := serverChoice, relation := { base := "=", modifiers := [] }, term }

/-! ## §3. Query text of a tree. -/

/-- The modifier as query text.  Comparison and value are written only when
both are there. -/
def Modifier.render (m : Modifier) : String :=
  match m.comparison, m.value with
  | some comparison, some value => "/" ++ m.name ++ comparison ++ value
  | _, _ => "/" ++ m.name

/-- A list of modifiers as query text. -/
def renderModifiers : List Modifier → String
  | [] => ""
  | m :: ms => m.render ++ renderModifiers ms

/-- The clause as query text, with the term in double quotes. -/
def Clause.render (c : Clause) : String :=
  c.index ++ " " ++ c.relation.base ++ renderModifiers c.relation.modifiers ++ " \"" ++ c.term
    ++ "\""

/-- The operator as query text. -/
def Operator.render : Operator → String
  | .and => "and"
  | .or => "or"
  | .not => "not"

/-- Sort keys as query text, each after a space. -/
def renderKeys : List SortKey → String
  | [] => ""
  | k :: ks => " " ++ k.index ++ renderModifiers k.modifiers ++ renderKeys ks

/-- The query as query text. -/
def Query.render : Query → String
  | .clause c => c.render
  | .boolean op left right => "(" ++ left.render ++ ") " ++ op.render ++ " (" ++ right.render ++ ")"
  | .sorted query keys => query.render ++ " sortBy" ++ renderKeys keys

/-- The name of the tree's outermost form. -/
def Query.kind : Query → String
  | .clause _ => "term"
  | .boolean _ _ _ => "boolean"
  | .sorted _ _ => "sort"

end CqlToSql
