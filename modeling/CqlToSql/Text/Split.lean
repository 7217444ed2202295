/-
  CqlToSql.Text.Split
  ───────────────────
  Cutting a text at a separator and joining it again.

      splitAt c s      — the parts between the occurrences of `c`; there is
                         one part more than there are separators
      cutFirst c s     — what stands before and after the first `c`
      cutLast c s      — what stands before and after the last `c`
      joinWith sep ps  — the parts with `sep` between neighbours
-/

namespace CqlToSql.Text

/-! ## §1. Parts. -/

/-- The parts of `cs` between the occurrences of `sep`; never the empty list. -/
def splitChars (sep : Char) : List Char → List (List Char)
  | [] => [[]]
  | c :: cs =>
    if c = sep then [] :: splitChars sep cs
    else
      match splitChars sep cs with
      | part :: parts => (c :: part) :: parts
      | [] => [[c]]

/-- The parts of a text between the occurrences of `sep`. -/
def splitAt (sep : Char) (s : String) : List String :=
  (splitChars sep s.toList).map String.ofList

/-- The parts with `sep` between neighbours. -/
def joinWith (sep : String) : List String → String
  | [] => ""
  | [part] => part
  | part :: next :: parts => part ++ sep ++ joinWith sep (next :: parts)

/-! ## §2. A single cut. -/

/-- What stands before and after the first occurrence of `sep`. -/
def cutFirstChars (sep : Char) : List Char → Option (List Char × List Char)
  | [] => none
  | c :: cs =>
    if c = sep then some ([], cs)
    else (cutFirstChars sep cs).map fun (before, after) => (c :: before, after)

/-- What stands before and after the first occurrence of `sep` in a text. -/
def cutFirst (sep : Char) (s : String) : Option (String × String) :=
  (cutFirstChars sep s.toList).map fun (before, after) =>
    (String.ofList before, String.ofList after)

/-- What stands before and after the last occurrence of `sep`. -/
def cutLastChars (sep : Char) : List Char → Option (List Char × List Char)
  | [] => none
  | c :: cs =>
    match cutLastChars sep cs with
    | some (before, after) => some (c :: before, after)
    | none => if c = sep then some ([], cs) else none

/-- What stands before and after the last occurrence of `sep` in a text. -/
def cutLast (sep : Char) (s : String) : Option (String × String) :=
  (cutLastChars sep s.toList).map fun (before, after) =>
    (String.ofList before, String.ofList after)

/-- What remains of `s` after `start`, if `s` starts with it. -/
def afterChars : List Char → List Char → Option (List Char)
  | [], cs => some cs
  | p :: ps, c :: cs => if p = c then afterChars ps cs else none
  | _ :: _, [] => none

/-- What remains of a text after `start`, if the text starts with it. -/
def after (start s : String) : Option String :=
  (afterChars start.toList s.toList).map String.ofList

end CqlToSql.Text
