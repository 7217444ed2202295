/-
  CqlToSql.Storage.Entry
  ──────────────────────
  **What is found at a path**, and a tree of files in memory to find it in.
  Following a path into the tree looks at every folder on the way, so that
  `x/../y` needs a folder `x`.
-/
import CqlToSql.Fault
import CqlToSql.Storage.Path

namespace CqlToSql.Storage

/-! ## §1. Entries. -/

/-- What is found at a path. -/
inductive Entry where
  | missing
  /-- The path goes on below a file. -/
  | insideFile
  /-- The path or a part of it is longer than paths may be. -/
  | longName
  /-- The path holds the character with code point zero. -/
  | zeroInName
  | folder
  /-- A file, with its text; `none` if its bytes are not text. -/
  | file (text : Option String)
  deriving Repr, DecidableEq, Inhabited

/-- There is something. -/
def Entry.isPresent : Entry → Bool
  | .folder => true
  | .file _ => true
  | _ => false

/-- There is a file. -/
def Entry.isFile : Entry → Bool
  | .file _ => true
  | _ => false

/-- The text of a file. -/
def Entry.read : Entry → Except ReadFault String
  | .missing => .error .missing
  | .insideFile => .error .insideFile
  | .longName => .error .longName
  | .zeroInName => .error .zeroInName
  | .folder => .error .folder
  | .file none => .error .notText
  | .file (some text) => .ok text

/-! ## §2. Trees. -/

/-- Files and folders, each under the parts of its path from the root.
Folders on the way to an entry need no entry of their own. -/
structure Tree where
  entries : List (List String × Entry)
  deriving Repr, DecidableEq, Inhabited

namespace Tree

/-- What is found at a path that has no `.` and `..`. -/
def entryAt (t : Tree) (place : List String) : Entry :=
  match t.entries.find? fun e => e.1 == place with
  | some (_, entry) => entry
  | none =>
    if place.isEmpty || t.entries.any fun e => place.isPrefixOf e.1 then .folder else .missing

/-- The number of bytes that a part of a path has at most. -/
def partLimit : Nat := 255

/-- The number of bytes that a path has at most. -/
def pathLimit : Nat := 4095

/-- What is found when the parts are followed from a place. -/
def follow (t : Tree) (place : List String) : List String → Entry
  | [] => t.entryAt place
  | p :: ps =>
    match t.entryAt place with
    | .folder =>
      if p = "" ∨ p = "." then t.follow place ps
      else if p = ".." then t.follow place.dropLast ps
      else if partLimit < p.utf8ByteSize then .longName
      else t.follow (place ++ [p]) ps
    | .file _ => .insideFile
    | entry => entry

/-- What is found at a path, taken from the working directory. -/
def probe (t : Tree) (directory path : String) : Entry :=
  if path.toList.contains (Char.ofNat 0) then .zeroInName
  else if path = "" then .missing
  else if pathLimit < path.utf8ByteSize then .longName
  else t.follow [] (parts (join directory path))

end Tree

end CqlToSql.Storage
