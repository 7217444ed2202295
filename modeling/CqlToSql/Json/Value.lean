/-
  CqlToSql.Json.Value
  ───────────────────
  **JSON values** as they stand in a JSON text: object members keep their
  order and may repeat a key, and a number keeps its spelling.

  A JSON string can hold half of a surrogate pair, which no text can; such a
  string is `string none`, and a key of this kind is `none`.
-/

namespace CqlToSql.Json

/-- A JSON value. -/
inductive Value where
  | null
  | bool (b : Bool)
  | number (spelling : String)
  | string (text : Option String)
  | array (items : List Value)
  | object (members : List (Option String × Value))
  deriving Repr, Inhabited

end CqlToSql.Json
