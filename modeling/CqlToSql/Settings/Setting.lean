/-
  CqlToSql.Settings.Setting
  ─────────────────────────
  **Settings of the program.**  Settings come from several sources, each a
  list of keys with values; for every key the last source that gives it wins,
  with the whole value.  Keys that mean nothing to the program are skipped,
  and a value of the wrong kind spoils the settings.
-/

namespace CqlToSql

/-- The value of a key. -/
inductive Setting where
  | text (s : String)
  | flag (b : Bool)
  | list (items : List Setting)
  /-- A number, a date or a table: no setting takes one. -/
  | other
  deriving Repr, Inhabited

/-- The text of a value. -/
def Setting.text? : Setting → Option String
  | .text s => some s
  | _ => none

/-- The truth value of a value. -/
def Setting.flag? : Setting → Option Bool
  | .flag b => some b
  | _ => none

/-- The texts of a list of values. -/
def Setting.allTexts : List Setting → Option (List String)
  | [] => some []
  | v :: vs =>
    match v.text?, allTexts vs with
    | some s, some ss => some (s :: ss)
    | _, _ => none

/-- The texts of a list. -/
def Setting.texts? : Setting → Option (List String)
  | .list items => allTexts items
  | _ => none

/-- Keys with values; of a repeated key the last one counts. -/
abbrev Source : Type := List (String × Setting)

/-- The value of a key in a source. -/
def Source.value? (source : Source) (key : String) : Option Setting :=
  (source.reverse.find? fun e => e.1 == key).map Prod.snd

/-- The value of a key in a list of sources, the last of which comes first. -/
def valueIn? (key : String) : List Source → Option Setting
  | [] => none
  | source :: earlier => source.value? key <|> valueIn? key earlier

/-- The settings of the program. -/
structure Settings where
  /-- How much is logged. -/
  logLevel : String := "off"
  /-- The table that queries run against. -/
  table : Option String := none
  /-- The column of the table that holds documents. -/
  field : String := "jsonb"
  /-- File with the schema description. -/
  schemaPath : Option String := none
  serverChoice : List String := []
  /-- Search terms may address other tables. -/
  permissive : Bool := false
  deriving Repr, DecidableEq, Inhabited

/-- A value of the right kind, or the default if there is none. -/
def typedOr {α : Type} (default : α) (read : Setting → Option α) : Option Setting → Option α
  | none => some default
  | some v => read v

/-- The settings that a list of sources gives, the last of which comes first. -/
def Settings.ofSources (sources : List Source) : Option Settings := do
  let value (key : String) : Option Setting := valueIn? key sources
  return {
    logLevel := ← typedOr "off" Setting.text? (value "log_level")
    table := ← typedOr none (fun v => v.text?.map some) (value "table")
    field := ← typedOr "jsonb" Setting.text? (value "field")
    schemaPath := ← typedOr none (fun v => v.text?.map some) (value "db_schema")
    serverChoice := ← typedOr [] Setting.texts? (value "server_choice")
    permissive := ← typedOr false Setting.flag? (value "permissive_foreign_keys") }

end CqlToSql
