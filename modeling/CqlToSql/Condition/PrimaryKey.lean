/-
  CqlToSql.Condition.PrimaryKey
  ─────────────────────────────
  **Clauses on the primary key.**  Ids are UUIDs and are searched in their own
  column.  An id can be compared with a UUID, or with the beginning of one
  followed by a star, which is a range of UUIDs.
-/
import CqlToSql.Fault
import CqlToSql.Schema.Table
import CqlToSql.Text.Uuid

namespace CqlToSql.Condition

open CqlToSql.Text

/-- The condition of a clause that holds for all ids, or for none. -/
def constantKey (equal : Bool) : String := if equal then "true" else "false"

/-- The condition of a clause with something that no id is equal to.  The
search term is not put into the comment. -/
def invalidKey (equal : Bool) : String :=
  if equal then "false /* id == invalid UUID */" else "true /* id <> invalid UUID */"

/-- The ids in a range, or those outside. -/
def keyRange (equal : Bool) (lowest highest : String) : String :=
  if equal then
    "(" ++ keyColumn ++ ">='" ++ lowest ++ "' and " ++ keyColumn ++ "<='" ++ highest ++ "')"
  else
    "(" ++ keyColumn ++ "<'" ++ lowest ++ "' or " ++ keyColumn ++ ">'" ++ highest ++ "')"

/-- The term without the star at its end, if it has one. -/
def dropFinalStar (term : String) : String :=
  match term.toList.reverse with
  | '*' :: cs => String.ofList cs.reverse
  | _ => term

/-- Equality, or inequality, of ids with the term. -/
def keyEquality (equal : Bool) (term : String) : Except Fault String :=
  if term = "" ∨ term = "*" then .ok (constantKey equal)
  else if !term.toList.contains '*' then
    if isUuid term then .ok (keyColumn ++ (if equal then "=" else "<>") ++ "'" ++ term ++ "'")
    else .ok (invalidKey equal)
  else
    let start := dropFinalStar term
    if start.toList.contains '*' then .error (.query (.keyTruncation term))
    else
      let (lowest, highest) := uuidRange start
      if isUuid lowest && isUuid highest then .ok (keyRange equal lowest highest)
      else .ok (invalidKey equal)

/-- The condition of a clause on the primary key. -/
def primaryKey (relation : Relation) (term : String) : Except Fault String :=
  match relation.modifiers with
  | m :: _ => .error (.query (.keyModifier m.name))
  | [] =>
    if relation.base ∈ [">", "<", ">=", "<="] then
      if isUuid term then .ok (keyColumn ++ relation.base ++ "'" ++ term ++ "'")
      else .error (.query (.keyComparison relation.base term))
    else if relation.base = "=" ∨ relation.base = "==" then keyEquality true term
    else if relation.base = "<>" then keyEquality false term
    else .error (.query (.keyRelation relation.base))

end CqlToSql.Condition
