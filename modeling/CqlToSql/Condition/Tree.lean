/-
  CqlToSql.Condition.Tree
  ───────────────────────
  **The condition and the order of a query tree.**  Operators nest to the
  left in a parsed query, so a tree is walked along its left operands, and
  the right operands wait in a list until the leftmost condition is there.
  The depth of the walk is then that of the right operands alone.

  A clause like `title=*` after `or` is left out: it would match every record
  with a title.
-/
import CqlToSql.Condition.Clause
import CqlToSql.Document.Selection

namespace CqlToSql.Condition

open CqlToSql.Text

/-! ## §1. Order. -/

/-- The order that a sort key asks for. -/
def sortKey (scope : Scope) (key : SortKey) : Except Fault String :=
  match Matching.ofModifiers key.modifiers with
  | .error fault => .error fault
  | .ok matching =>
    let direction := match matching.direction with
      | .ascending => ""
      | .descending => " DESC"
    if key.index = keyColumn then .ok (keyColumn ++ direction)
    else
      match scope.field key.index with
      | .error fault => .error fault
      | .ok field =>
        match matching.format with
        | .number => .ok (field.json ++ direction)
        | .string => .ok (lowered (unaccented field.text) ++ direction)

/-- The orders that sort keys ask for. -/
def sortKeys (scope : Scope) : List SortKey → Except Fault (List String)
  | [] => .ok []
  | key :: keys =>
    match sortKey scope key with
    | .error fault => .error fault
    | .ok order =>
      match sortKeys scope keys with
      | .error fault => .error fault
      | .ok orders => .ok (order :: orders)

/-- The body of an `ORDER BY` clause. -/
def order (scope : Scope) (keys : List SortKey) : Except Fault String :=
  (sortKeys scope keys).map (joinWith ", ")

/-! ## §2. Operators. -/

/-- A clause like `title=*`, which every record with the field matches. -/
def matchesAnyValue : Query → Bool
  | .clause c => c.term == "*" && c.relation.base == "="
  | _ => false

/-- Two conditions under an operator.  A condition that is neither true nor
false counts as not fulfilled after `not`. -/
def combine (operator : Operator) (left right : String) : String :=
  match operator with
  | .and => "(" ++ left ++ ") AND (" ++ right ++ ")"
  | .or => "(" ++ left ++ ") OR (" ++ right ++ ")"
  | .not => "(" ++ left ++ ") AND ((" ++ right ++ ") IS NOT TRUE)"

/-- An operator and its right operand, which wait for the left condition. -/
structure Pending where
  operator : Operator
  right : Query
  /-- The condition of the right operand. -/
  condition : Unit → Logged String

/-- The condition of the left operand and a pending operator. -/
def Pending.attach (p : Pending) (left : String) : Logged String :=
  if p.operator = .or ∧ matchesAnyValue p.right then do
    Logged.write .debug "Simplifying OR clause with =* on the right side"
    pure left
  else do
    let right ← p.condition ()
    pure (combine p.operator left right)

/-- The condition of the leftmost operand and the pending operators, the
innermost first. -/
def attachAll (left : String) : List Pending → Logged String
  | [] => pure left
  | p :: pending => do
    let sql ← p.attach left
    attachAll sql pending

/-! ## §3. Trees. -/

/-- The condition of a query and the operators that wait for it. -/
def walk (scope : Scope) : Query → List Pending → Logged String
  | .clause c, pending => do
    let sql ← clause scope c
    attachAll sql pending
  | .boolean operator left right, pending =>
    walk scope left ({ operator, right, condition := fun _ => walk scope right [] } :: pending)
  | .sorted query keys, pending => do
    let condition ← walk scope query []
    let order ← Logged.ofExcept (order scope keys)
    attachAll (condition ++ " ORDER BY " ++ order) pending

/-- The condition of a query.  Sort keys follow as an `ORDER BY` clause. -/
def query (scope : Scope) (q : Query) : Logged String := walk scope q []

/-- The condition and the order of a query. -/
def selection (scope : Scope) : Query → Logged Selection
  | .sorted q keys => do
    let condition ← query scope q
    let order ← Logged.ofExcept (order scope keys)
    pure { condition, order }
  | q => do
    let condition ← query scope q
    pure { condition, order := "" }

end CqlToSql.Condition
