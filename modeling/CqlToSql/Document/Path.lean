/-
  CqlToSql.Document.Path
  ──────────────────────
  **SQL expressions for fields of a document.**  A field is named by a dotted
  path; each part of the path is one step into the document, written with the
  part as an SQL literal:

      column->'a'->>'b'   as text
      column->'a'->'b'    as JSON

  When a field has an index on an expression, that expression is its text.
-/
import CqlToSql.Schema.Table
import CqlToSql.Text.Split

namespace CqlToSql

open CqlToSql.Text

/-! ## §1. Paths. -/

/-- The steps of a path whose result is text. -/
def textSteps : List String → String
  | [] => ""
  | [part] => "->>'" ++ part ++ "'"
  | part :: next :: parts => "->'" ++ part ++ "'" ++ textSteps (next :: parts)

/-- The steps of a path whose result is JSON. -/
def jsonSteps : List String → String
  | [] => ""
  | part :: parts => "->'" ++ part ++ "'" ++ jsonSteps parts

/-- The field `path` of the document in `column`, as text. -/
def textPath (column path : String) : String := column ++ textSteps (splitAt '.' path)

/-- The field `path` of the document in `column`, as JSON. -/
def jsonPath (column path : String) : String := column ++ jsonSteps (splitAt '.' path)

/-! ## §2. Several document columns. -/

/-- The column that an index addresses, and the path inside that column.  An
index that starts with the name of a column and a dot addresses that column,
and any other index the first column. -/
def selectColumn (columns : List String) (index : String) : String × String :=
  match columns.findSome? fun column => (after (column ++ ".") index).map fun rest => (column, rest)
    with
  | some selected => selected
  | none => (columns.headD "", index)

/-! ## §3. Fields. -/

/-- The SQL expressions of a field. -/
structure Field where
  /-- The field as text. -/
  text : String
  /-- The field as JSON. -/
  json : String
  deriving Repr, DecidableEq, Inhabited

/-- The field `path` of the document in `column`. -/
def Field.at (column path : String) : Field :=
  { text := textPath column path, json := jsonPath column path }

/-- The fields of a compound index, as texts. -/
def compoundTexts (column names : String) : List String :=
  (((splitAt ',' names).map trim).filter (· != "")).map (textPath column)

/-- The expression an index is made on, if it is not a field alone. -/
def Index.expression (i : Index) (column : String) : Option String :=
  match i.sqlExpression, i.multiFieldNames with
  | some sql, _ => some ("(" ++ trim sql ++ ")")
  | none, some names =>
    some ("concat_space_sql(" ++ joinWith " , " (compoundTexts column names) ++ ")")
  | none, none => none

/-- The field with the expression of an index as its text, if there is one. -/
def Field.withExpression (f : Field) (column : String) (i : Option Index) : Field :=
  match i.bind (Index.expression · column) with
  | some text => { f with text }
  | none => f

end CqlToSql
