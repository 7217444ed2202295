/-
  CqlToSql.Schema.Description
  ───────────────────────────
  **Schema descriptions in JSON.**  Every declaration is a record with the
  field names of its structure; see `CqlToSql.Json.Record` for the forms a
  record can have.  A description that can be read is checked table by table.
-/
import CqlToSql.Json.Reader
import CqlToSql.Json.Record
import CqlToSql.Schema.Table

namespace CqlToSql

open CqlToSql.Json

/-! ## §1. Declarations. -/

/-- Reads the declaration of an index. -/
def Index.ofJson (v : Value) : Option Index :=
  match v.fields ["fieldName", "caseSensitive", "removeAccents", "stringType", "arraySubfield",
      "arrayModifiers", "multiFieldNames", "sqlExpression"] with
  | some [name, sensitive, accents, text, subfield, modifiers, multi, sql] => do
    return {
      fieldName := ← required Value.text? name
      caseSensitive := ← withDefault false Value.bool? sensitive
      removeAccents := ← withDefault true Value.bool? accents
      stringType := ← withDefault true Value.bool? text
      arraySubfield := ← withDefault none Value.optionalText? subfield
      arrayModifiers := ← withDefault [] (Value.list? Value.text?) modifiers
      multiFieldNames := ← withDefault none Value.optionalText? multi
      sqlExpression := ← withDefault none Value.optionalText? sql }
  | _ => none

/-- Reads the declaration of a foreign key. -/
def ForeignKey.ofJson (v : Value) : Option ForeignKey :=
  match v.fields ["fieldName", "targetTable", "targetTableAlias", "tableAlias"] with
  | some [name, target, targetAlias, childAlias] => do
    return {
      fieldName := ← required Value.text? name
      targetTable := ← required Value.text? target
      targetTableAlias := ← withDefault none Value.optionalText? targetAlias
      tableAlias := ← withDefault none Value.optionalText? childAlias }
  | _ => none

/-- Reads the declaration of a table. -/
def Table.ofJson (v : Value) : Option Table :=
  let indexes := withDefault [] (Value.list? Index.ofJson)
  match v.fields ["tableName", "fullTextIndex", "ginIndex", "index", "uniqueIndex", "likeIndex",
      "foreignKeys"] with
  | some [name, fullText, gin, plain, unique, like, keys] => do
    return {
      tableName := ← required Value.text? name
      fullTextIndex := ← indexes fullText
      ginIndex := ← indexes gin
      index := ← indexes plain
      uniqueIndex := ← indexes unique
      likeIndex := ← indexes like
      foreignKeys := ← withDefault [] (Value.list? ForeignKey.ofJson) keys }
  | _ => none

/-! ## §2. Descriptions. -/

/-- Reads a schema, unchecked. -/
def Schema.ofJson (v : Value) : Option Schema :=
  match v.fields ["tables"] with
  | some [tables] => do
    return { tables := ← withDefault [] (Value.list? Table.ofJson) tables }
  | _ => none

/-- The schema that a JSON value describes. -/
def Schema.describedBy (v : Option Value) : Except SchemaFault Schema :=
  match v.bind Schema.ofJson with
  | none => .error .malformed
  | some s =>
    match s.check with
    | .error fault => .error fault
    | .ok () => .ok s

/-- The schema that a JSON text describes. -/
def Schema.parse (text : String) : Except SchemaFault Schema :=
  Schema.describedBy (Value.parse text)

end CqlToSql
