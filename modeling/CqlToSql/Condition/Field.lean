/-
  CqlToSql.Condition.Field
  ────────────────────────
  **Clauses on a field of the searched table.**  A modifier whose name starts
  with `@` turns the clause into a search in the elements of an array: the
  element has to hold the modifier's name with the modifier's value, and the
  comparison is made with a part of that element.  Without such a modifier
  the clause is on the primary key, or compares the field itself.
-/
import CqlToSql.Condition.Comparison
import CqlToSql.Condition.PrimaryKey
import CqlToSql.Json.Quoted

namespace CqlToSql.Condition

open CqlToSql.Text

/-- The text with its single quotes doubled. -/
def doubleQuotes (s : String) : String := String.ofList (s.toList.flatMap Term.doubleQuote)

/-- The JSON object with one member, as the body of an SQL literal. -/
def memberLiteral (name value : String) : String :=
  "\x7b" ++ doubleQuotes (Json.quote name) ++ ": " ++ doubleQuotes (Json.quote value) ++ "\x7d"

/-- The records with an array element that holds the member and fulfils the
condition, which is on the element `t.c`. -/
def elementSearch (array table name value condition : String) : String :=
  "id in (select t.id from (select id as id, jsonb_array_elements(" ++ array ++ ") as c from "
    ++ table ++ ") as t where t.c @> " ++ literal (memberLiteral name value) ++ " and "
    ++ condition ++ ")"

/-- A clause on the elements of the array `index`, for the declared modifier
`name` with the value `value`. -/
def element (scope : Scope) (index : String) (clause : Clause) (name part value : String) :
    Logged String :=
  match cutLast '.' scope.column with
  | none => Logged.fail (.column (.noTable scope.column))
  | some (_, column) => do
    let condition ← comparison clause (CqlToSql.Field.at "t.c" part) (scope.indexes index)
    pure (elementSearch (jsonPath column index) scope.table name value condition)

/-- The first modifier that addresses array elements, with its name less the
`@`. -/
def elementModifier? : List Modifier → Option (String × Modifier)
  | [] => none
  | m :: ms =>
    match m.name.toList with
    | '@' :: name => some (String.ofList name, m)
    | _ => elementModifier? ms

/-- A clause on the field `index` of the searched table. -/
def field (scope : Scope) (index : String) (clause : Clause) : Logged String := do
  let expressions ← Logged.ofExcept (scope.field index)
  match elementModifier? clause.relation.modifiers with
  | some (name, modifier) =>
    match (scope.indexes index).elementModifier name with
    | some (declared, part) => element scope index clause declared part (modifier.value.getD "")
    | none => Logged.fail (.query (.relationModifier modifier.name))
  | none =>
    if index = keyColumn then Logged.ofExcept (primaryKey clause.relation clause.term)
    else comparison clause expressions (scope.indexes index)

/-- A clause on each of the fields, one of which has to fulfil it. -/
def fields (scope : Scope) (clause : Clause) : List String → Logged (List String)
  | [] => pure []
  | index :: rest => do
    let sql ← field scope index clause
    let others ← fields scope clause rest
    pure (sql :: others)

/-- A search term that stands alone. -/
def anyField (scope : Scope) (clause : Clause) : Logged String :=
  if scope.serverChoice.isEmpty then Logged.fail (.query .noServerChoice)
  else do
    let conditions ← fields scope clause scope.serverChoice
    pure (joinWith " OR " conditions)

end CqlToSql.Condition
