/-
  CqlToSql.Configuration
  ──────────────────────
  **Configurations in JSON.**  A configuration is a record of four fields, all
  of which have defaults; a translator is made from it.  The schema comes
  from a file, and what reading the file gave is passed in.
-/
import CqlToSql.Schema.Description
import CqlToSql.Translator

namespace CqlToSql

open CqlToSql.Json

/-- Everything a translator needs. -/
structure Configuration where
  documentColumns : List String := [documentColumn]
  serverChoiceIndexes : List String := []
  /-- File with the schema description. -/
  schemaPath : Option String := none
  mode : JoinMode := .strict
  deriving Repr, DecidableEq, Inhabited

/-! ## §1. Reading. -/

/-- The mode of that name. -/
def JoinMode.ofName? (name : String) : Option JoinMode :=
  if name = "strict" then some .strict
  else if name = "permissive" then some .permissive
  else none

/-- Reads a mode: its name, or an object with the name as the only key and
`null` as its value. -/
def JoinMode.ofJson : Value → Option JoinMode
  | .string (some name) => JoinMode.ofName? name
  | .object [(some name, .null)] => JoinMode.ofName? name
  | _ => none

/-- Reads a configuration. -/
def Configuration.ofJson (v : Value) : Option Configuration :=
  let texts := Value.list? Value.text?
  match v.fields ["document_columns", "server_choice_indexes", "db_schema_path",
      "foreign_key_mode"] with
  | some [columns, indexes, path, mode] => do
    return {
      documentColumns := ← withDefault [documentColumn] texts columns
      serverChoiceIndexes := ← withDefault [] texts indexes
      schemaPath := ← withDefault none Value.optionalText? path
      mode := ← withDefault .strict JoinMode.ofJson mode }
  | _ => none

/-- The configuration of a JSON text. -/
def Configuration.parse (text : String) : Option Configuration :=
  (Value.parse text).bind Configuration.ofJson

/-! ## §2. Translators of configurations. -/

/-- The schema described in a file, given what reading the file gave. -/
def Schema.load (path : String) (contents : Except ReadFault String) : Logged Schema :=
  match contents with
  | .error cause => Logged.fail (.schema (.unreadable path cause))
  | .ok text =>
    match Schema.parse text with
    | .error fault => Logged.fail (.schema fault)
    | .ok schema => do
      Logged.write .info ("Loaded database schema with " ++ toString schema.tables.length
        ++ " tables from " ++ path)
      pure schema

/-- The translator of a configuration, where `read` gives the contents of a
file. -/
def Translator.ofConfiguration (config : Configuration)
    (read : String → Except ReadFault String) : Logged Translator := do
  let columns ← Logged.ofExcept (Translator.ofColumns config.documentColumns)
  let choice ← Logged.ofExcept (columns.withServerChoice config.serverChoiceIndexes)
  let translator := { choice with mode := config.mode }
  match config.schemaPath with
  | some path => do
    let schema ← Schema.load path (read path)
    pure { translator with schema }
  | none => do
    Logged.write .info "No database schema configured, index information is not available"
    pure translator

end CqlToSql
