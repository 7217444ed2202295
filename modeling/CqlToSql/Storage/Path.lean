/-
  CqlToSql.Storage.Path
  ─────────────────────
  **Paths of files.**  A path is a text with slashes between its parts; it is
  absolute when it starts with one.  `clean` removes `.` and `..` from an
  absolute path by looking at the path alone.
-/
import CqlToSql.Text.Split

namespace CqlToSql.Storage

open CqlToSql.Text

/-- The parts of a path, empty ones included. -/
def parts (path : String) : List String := splitAt '/' path

/-- The path starts at the root. -/
def isAbsolute (path : String) : Bool := path.toList.head? == some '/'

/-- The path, taken from the folder `base` unless it is absolute. -/
def join (base path : String) : String :=
  if isAbsolute path then path
  else if base.toList.getLast? = some '/' then base ++ path
  else base ++ "/" ++ path

/-- What remains of the parts of an absolute path; `kept` holds those before,
the last one first. -/
def cleanParts (kept : List String) : List String → List String
  | [] => kept.reverse
  | p :: ps =>
    if p = "" ∨ p = "." then cleanParts kept ps
    else if p = ".." then cleanParts kept.tail ps
    else cleanParts (p :: kept) ps

/-- The absolute path without `.` and `..`. -/
def clean (path : String) : String := "/" ++ joinWith "/" (cleanParts [] (parts path))

/-- The folder of the parts and all folders above it, innermost first; the
parts are given from the last to the first. -/
def foldersAbove : List String → List String
  | [] => ["/"]
  | p :: ps => ("/" ++ joinWith "/" (p :: ps).reverse) :: foldersAbove ps

/-- The folder and all folders above it, innermost first. -/
def ancestors (folder : String) : List String :=
  foldersAbove (cleanParts [] (parts folder)).reverse

end CqlToSql.Storage
