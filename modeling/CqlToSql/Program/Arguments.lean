/-
  CqlToSql.Program.Arguments
  ──────────────────────────
  **The command line.**  Arguments are taken one by one:

      --name value  --name=value  -n value  -nvalue  -n=value
      --permissive-foreign-keys [true|false]
      --version  -V  --help  -h
      --              everything after it is a query

  The value of an option does not start with a dash (a dash alone is a
  value).  Every option but the server choice may be given once, and there is
  exactly one query.
-/
import CqlToSql.Settings.Setting
import CqlToSql.Text.Split

namespace CqlToSql.Program

open CqlToSql.Text

/-! ## §1. Options. -/

/-- An option that has a value. -/
inductive OptionName where
  | config
  | table
  | field
  | dbSchema
  | serverChoice
  | permissive
  | logLevel
  deriving Repr, DecidableEq

/-- What a command line gives. -/
structure Arguments where
  /-- Settings file. -/
  config : Option String := none
  table : Option String := none
  field : Option String := none
  schemaPath : Option String := none
  serverChoice : Option (List String) := none
  permissive : Option Bool := none
  logLevel : Option String := none
  query : Option String := none
  deriving Repr, DecidableEq, Inhabited

/-- What a command line asks for. -/
inductive Request where
  | run (arguments : Arguments)
  | version
  | help
  /-- The command line is wrong. -/
  | misuse
  deriving Repr, DecidableEq

/-- The option with that long name. -/
def longOption? (name : String) : Option OptionName :=
  if name = "config" then some .config
  else if name = "table" then some .table
  else if name = "field" then some .field
  else if name = "db-schema" then some .dbSchema
  else if name = "server-choice" then some .serverChoice
  else if name = "permissive-foreign-keys" then some .permissive
  else if name = "log-level" then some .logLevel
  else none

/-- The option with that short name. -/
def shortOption? (c : Char) : Option OptionName :=
  if c = 'c' then some .config
  else if c = 't' then some .table
  else if c = 'f' then some .field
  else if c = 'b' then some .dbSchema
  else if c = 's' then some .serverChoice
  else if c = 'l' then some .logLevel
  else none

/-- The value in place of nothing; a path must not be empty. -/
def once (old : Option String) (value : String) (mayBeEmpty : Bool) : Option (Option String) :=
  if old.isSome || (value = "" && !mayBeEmpty) then none else some (some value)

/-- The arguments with the value of an option; nothing if the option must not
be given again, or not with that value. -/
def Arguments.set (a : Arguments) (name : OptionName) (value : String) : Option Arguments :=
  match name with
  | .config => (once a.config value false).map fun v => { a with config := v }
  | .table => (once a.table value true).map fun v => { a with table := v }
  | .field => (once a.field value true).map fun v => { a with field := v }
  | .dbSchema => (once a.schemaPath value false).map fun v => { a with schemaPath := v }
  | .serverChoice => some { a with serverChoice := some (a.serverChoice.getD [] ++ [value]) }
  | .permissive =>
    if a.permissive.isSome then none
    else if value = "true" then some { a with permissive := some true }
    else if value = "false" then some { a with permissive := some false }
    else none
  | .logLevel => (once a.logLevel value true).map fun v => { a with logLevel := v }

/-! ## §2. Taking arguments. -/

/-- What has been taken. -/
structure Taken where
  arguments : Arguments := {}
  /-- An option that waits for its value. -/
  pending : Option OptionName := none
  /-- Everything that follows is a query. -/
  queriesOnly : Bool := false

/-- The arguments when a waiting option gets no value. -/
def Taken.settle (t : Taken) : Option Arguments :=
  match t.pending with
  | none => some t.arguments
  | some .permissive => t.arguments.set .permissive "true"
  | some _ => none

/-- Takes a query. -/
def Taken.takeQuery (t : Taken) (query : String) : Option Taken :=
  match t.arguments.query with
  | none => some { t with arguments := { t.arguments with query := some query } }
  | some _ => none

/-- An argument by its form. -/
inductive Argument where
  /-- Two dashes alone. -/
  | separator
  /-- A long name, with the value after an equals sign. -/
  | long (name : String) (value : Option String)
  /-- One dash and short names, or a short name with a value. -/
  | short (c : Char) (rest : List Char)
  | plain (text : String)
  deriving Repr, DecidableEq

/-- The form of an argument. -/
def Argument.ofText (s : String) : Argument :=
  match s.toList with
  | ['-', '-'] => .separator
  | '-' :: '-' :: rest =>
    match cutFirstChars '=' rest with
    | some (name, value) => .long (String.ofList name) (some (String.ofList value))
    | none => .long (String.ofList rest) none
  | '-' :: c :: rest => .short c rest
  | _ => .plain s

/-- The value that stands in one argument with a short name. -/
def attached : List Char → Option String
  | [] => none
  | '=' :: value => some (String.ofList value)
  | value => some (String.ofList value)

/-- Takes an option, with its value if that stands in the same argument. -/
def Taken.takeOption (t : Taken) (name : OptionName) (value : Option String) : Option Taken :=
  match t.settle with
  | none => none
  | some arguments =>
    match value with
    | none => some { t with arguments, pending := some name }
    | some v => (arguments.set name v).map fun arguments => { t with arguments, pending := none }

/-- Ends a command line with a request that needs nothing more. -/
def Taken.endWith (t : Taken) (request : Request) : Request :=
  if t.settle.isSome then request else .misuse

/-- What the arguments that are left ask for, after those that are taken. -/
def requestFrom (t : Taken) : List String → Request
  | [] =>
    match t.settle with
    | some arguments => if arguments.query.isSome then .run arguments else .misuse
    | none => .misuse
  | s :: rest =>
    if t.queriesOnly then
      match t.takeQuery s with
      | some t => requestFrom t rest
      | none => .misuse
    else
      match Argument.ofText s with
      | .separator => requestFrom { t with queriesOnly := true } rest
      | .long name value =>
        if name = "version" then (if value.isSome then .misuse else t.endWith .version)
        else if name = "help" then (if value.isSome then .misuse else t.endWith .help)
        else
          match (longOption? name).bind (t.takeOption · value) with
          | some t => requestFrom t rest
          | none => .misuse
      | .short c value =>
        if c = 'V' then t.endWith .version
        else if c = 'h' then t.endWith .help
        else
          match (shortOption? c).bind (t.takeOption · (attached value)) with
          | some t => requestFrom t rest
          | none => .misuse
      | .plain text =>
        match t.pending with
        | some name =>
          match t.arguments.set name text with
          | some arguments => requestFrom { t with arguments, pending := none } rest
          | none => .misuse
        | none =>
          match t.takeQuery text with
          | some t => requestFrom t rest
          | none => .misuse

/-- What a command line asks for. -/
def request (arguments : List String) : Request := requestFrom {} arguments

/-! ## §3. Settings. -/

/-- The settings that the command line gives. -/
def Arguments.source (a : Arguments) : Source :=
  let text (key : String) (v : Option String) : Source := (v.map fun s => (key, .text s)).toList
  text "table" a.table ++ text "field" a.field ++ text "db_schema" a.schemaPath
    ++ (a.serverChoice.map fun l => ("server_choice", .list (l.map .text))).toList
    ++ (a.permissive.map fun b => ("permissive_foreign_keys", .flag b)).toList
    ++ text "log_level" a.logLevel

end CqlToSql.Program
