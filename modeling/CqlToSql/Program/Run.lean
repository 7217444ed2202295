/-
  CqlToSql.Program.Run
  ────────────────────
  **The program**: it compiles the query on its command line and prints one
  statement.  Settings come from a file, then from the environment, then from
  the command line; the file is the one the command line names, or else the
  first that exists of one in the working directory and one in the user's
  configuration folder.

  What lies in the file system is asked for through `probe`, so the program
  is the same over a real file system and over a tree in memory.
-/
import CqlToSql.Configuration
import CqlToSql.Program.Arguments
import CqlToSql.Settings.Environment
import CqlToSql.Settings.Toml
import CqlToSql.Storage.Entry

namespace CqlToSql.Program

open CqlToSql.Text
open CqlToSql.Storage

/-! ## §1. Results. -/

/-- How the program ends. -/
inductive Result where
  /-- With text for the standard output. -/
  | printed (text : String)
  /-- With a message. -/
  | failed (message : String)
  /-- Because the settings could not be read. -/
  | badSettings
  /-- Because a variable of the environment is broken. -/
  | brokenVariable
  /-- Because the command line is wrong. -/
  | misused
  deriving Repr, DecidableEq, Inhabited

/-- The name of the program. -/
def name : String := "cql2pgjson"

/-- The version text of the program. -/
def versionText : String := name ++ " 0.1.0"

/-- A short description of the command line. -/
def helpText : String :=
  "Compile CQL queries into SQL for PostgreSQL tables with JSONB documents\n\nUsage: " ++ name
    ++ " [OPTIONS] <QUERY>"

/-- The file that settings are in. -/
def settingsFile : String := name ++ ".toml"

/-! ## §2. The statement. -/

/-- The statement of a compiled query. -/
def statement (table : String) (s : Selection) : String :=
  "select * from " ++ table ++ " where " ++ s.condition
    ++ (if s.order = "" then "" else " order by " ++ s.order)

/-- A fault and its cause, in words. -/
def trail (fault : Fault) : String :=
  match fault with
  | .schema (.unreadable _ cause) => fault.message ++ ": " ++ cause.message
  | _ => fault.message

/-- The configuration of settings, for a working directory. -/
def configuration (directory : String) (s : Settings) : Except String Configuration :=
  match s.table with
  | none => .error "No table given, set it with '--table' or in the config file"
  | some table =>
    if isAllBlank table then .error "No table given, set it with '--table' or in the config file"
    else
      .ok { documentColumns := [trim table ++ "." ++ trim s.field]
            serverChoiceIndexes := s.serverChoice
            schemaPath := s.schemaPath.map fun path => clean (join directory path)
            mode := if s.permissive then .permissive else .strict }

/-- The result of compiling a query with a configuration, where `read` gives
the contents of a file. -/
def compile (config : Configuration) (read : String → Except ReadFault String) (query : String) :
    Result :=
  match (Translator.ofConfiguration config read).result with
  | .error fault => .failed ("Could not set up translator: " ++ trail fault)
  | .ok translator =>
    match (translator.selectionOf query).result with
    | .error fault => .failed ("Could not compile query '" ++ query ++ "': " ++ trail fault)
    | .ok selection => .printed (statement translator.tableName selection)

/-! ## §3. Settings files. -/

/-- The first of the paths that fulfils the condition, with what is there. -/
def firstWhere {m : Type → Type} [Monad m] (probe : String → m Entry) (condition : Entry → Bool) :
    List String → m (Option (String × Entry))
  | [] => pure none
  | path :: paths => do
    let entry ← probe path
    if condition entry then pure (some (path, entry)) else firstWhere probe condition paths

/-- The value of an environment variable. -/
def lookupVariable (environment : List (String × String)) (key : String) : Option String :=
  (environment.find? fun v => v.1 == key).map Prod.snd

/-- The user's configuration folder. -/
def configurationFolder? (environment : List (String × String)) : Option String :=
  match lookupVariable environment "XDG_CONFIG_HOME" with
  | some folder => if isAbsolute folder then some folder else home
  | none => home
where
  /-- The folder below the home folder. -/
  home : Option String :=
    match lookupVariable environment "HOME" with
    | some folder => if folder = "" then none else some (join folder ".config")
    | none => none

/-- The places where settings are looked for when none is given. -/
def settingsPlaces (directory : String) (environment : List (String × String)) : List String :=
  join directory settingsFile
    :: ((configurationFolder? environment).map fun folder =>
        join (join folder name) settingsFile).toList

/-- The settings in a file.  A path that is not absolute is looked for in the
working directory and in the folders above it; without a file there are no
settings. -/
def fileSource {m : Type → Type} [Monad m] (probe : String → m Entry) (directory path : String) :
    m (Option Source) := do
  let places := if isAbsolute path then [path] else (ancestors directory).map (join · path)
  match ← firstWhere probe Entry.isFile places with
  | none => pure (some [])
  | some (_, entry) =>
    match entry.read with
    | .ok text => pure (Settings.Toml.source text)
    | .error _ => pure none

/-- The file that settings are taken from: the one that the command line names,
which must exist, or else the first that exists. -/
def settingsPath {m : Type → Type} [Monad m] (probe : String → m Entry) (directory : String)
    (environment : List (String × String)) (arguments : Arguments) :
    m (Except Result (Option String)) :=
  match arguments.config with
  | some path => do
    let entry ← probe path
    pure (if entry.isPresent then .ok (some path)
      else .error (.failed ("Config file '" ++ path ++ "' does not exist")))
  | none => do
    let found ← firstWhere probe Entry.isPresent (settingsPlaces directory environment)
    pure (.ok (found.map Prod.fst))

/-! ## §4. The program. -/

/-- The settings of the command line, the environment and the file, in this
order. -/
def settingsFrom (environment : List (String × String)) (arguments : Arguments)
    (fromFile : Option Source) : Except Result Settings :=
  match Settings.Environment.source environment, fromFile with
  | none, _ => .error .brokenVariable
  | some _, none => .error .badSettings
  | some variableSettings, some fileSettings =>
    match Settings.ofSources [arguments.source, variableSettings, fileSettings] with
    | none => .error .badSettings
    | some settings => .ok settings

/-- The settings of a run, or how the program ends without them. -/
def loadSettings {m : Type → Type} [Monad m] (probe : String → m Entry) (directory : String)
    (environment : List (String × String)) (arguments : Arguments) :
    m (Except Result Settings) := do
  match ← settingsPath probe directory environment arguments with
  | .error result => pure (.error result)
  | .ok none => pure (settingsFrom environment arguments (some []))
  | .ok (some path) =>
    let fromFile ← fileSource probe directory path
    pure (settingsFrom environment arguments fromFile)

/-- Compiles a query with a configuration, whose schema is in a file. -/
def compileWith {m : Type → Type} [Monad m] (probe : String → m Entry) (config : Configuration)
    (query : String) : m Result :=
  match config.schemaPath with
  | none => pure (compile config (fun _ => .error .missing) query)
  | some path => do
    let entry ← probe path
    pure (compile config (fun _ => entry.read) query)

/-- Runs the program with the arguments of a command line. -/
def runWith {m : Type → Type} [Monad m] (probe : String → m Entry) (directory : String)
    (environment : List (String × String)) (arguments : Arguments) : m Result := do
  match ← loadSettings probe directory environment arguments with
  | .error result => pure result
  | .ok settings =>
    match configuration directory settings with
    | .error message => pure (.failed message)
    | .ok config => compileWith probe config (arguments.query.getD "")

/-- Runs the program with a command line. -/
def run {m : Type → Type} [Monad m] (probe : String → m Entry) (directory : String)
    (environment : List (String × String)) (commandLine : List String) : m Result :=
  match request commandLine with
  | .misuse => pure .misused
  | .version => pure (.printed versionText)
  | .help => pure (.printed helpText)
  | .run arguments => runWith probe directory environment arguments

end CqlToSql.Program
