/-
  CqlToSql.Main
  ─────────────
  The command line program over the real file system and environment.
-/
import CqlToSql.Program.Run

namespace CqlToSql.Program

open CqlToSql.Storage

/-- The operating system's number for reading a folder as a file. -/
def folderCode : UInt32 := 21

/-- What is found at a path of the file system. -/
def probeDisk (path : String) : IO Entry := do
  try
    let bytes ← IO.FS.readBinFile path
    return .file (String.fromUTF8? bytes)
  catch
    | .inappropriateType _ code _ => return if code = folderCode then .folder else .insideFile
    | .invalidArgument .. =>
      return if path.toList.contains (Char.ofNat 0) then .zeroInName else .longName
    | _ => return .missing

/-- The environment variables that the program looks at. -/
def variableNames : List String :=
  ["HOME", "XDG_CONFIG_HOME"]
    ++ ["LOG_LEVEL", "TABLE", "FIELD", "DB_SCHEMA", "SERVER_CHOICE", "PERMISSIVE_FOREIGN_KEYS"].map
        (Settings.Environment.namePrefix ++ ·)

/-- The environment variables that are set. -/
def readVariables : List String → IO (List (String × String))
  | [] => return []
  | name :: names => do
    let rest ← readVariables names
    match ← IO.getEnv name with
    | some value => return (name, value) :: rest
    | none => return rest

end CqlToSql.Program

open CqlToSql.Program in
/-- Runs the program with the arguments of its command line. -/
def main (arguments : List String) : IO UInt32 := do
  let directory ← IO.currentDir
  let environment ← readVariables variableNames
  match ← run probeDisk directory.toString environment arguments with
  | .printed text =>
    IO.println text
    return 0
  | .failed message =>
    IO.eprintln ("Error: " ++ message)
    return 1
  | .badSettings =>
    IO.eprintln "Error: the settings could not be read"
    return 1
  | .brokenVariable =>
    IO.eprintln "Error: a variable of the environment is broken"
    return 101
  | .misused =>
    IO.eprintln helpText
    return 2
