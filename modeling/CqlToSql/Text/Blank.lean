/-
  CqlToSql.Text.Blank
  ───────────────────
  **Blank characters**, and the cuts of a text that depend on them.

  A character is blank when it has the Unicode property White_Space.  The
  class has 25 members; among the invisible characters that are NOT blank are
  U+200B (zero width space), U+FEFF (byte order mark) and U+180E.

      trim   — the text without the blanks at its two ends
      words  — the maximal runs of characters that are not blank, in order
-/
import CqlToSql.Text.CodePoint

namespace CqlToSql.Text

/-! ## §1. The class. -/

/-- The code point ranges of the property White_Space. -/
def blankRanges : List (Nat × Nat) :=
  [(0x09, 0x0D), (0x20, 0x20), (0x85, 0x85), (0xA0, 0xA0), (0x1680, 0x1680), (0x2000, 0x200A),
   (0x2028, 0x2029), (0x202F, 0x202F), (0x205F, 0x205F), (0x3000, 0x3000)]

/-- Has the property White_Space. -/
def isBlank (c : Char) : Bool := inRanges blankRanges c

/-! ## §2. Trimming. -/

/-- The characters without the blanks they start with. -/
def dropBlanks (cs : List Char) : List Char := cs.dropWhile isBlank

/-- The characters without the blanks they end with. -/
def dropFinalBlanks : List Char → List Char
  | [] => []
  | c :: cs =>
    match dropFinalBlanks cs with
    | [] => if isBlank c then [] else [c]
    | kept => c :: kept

/-- The text without the blanks at its two ends. -/
def trim (s : String) : String := String.ofList (dropFinalBlanks (dropBlanks s.toList))

/-- Holds nothing but blanks. -/
def isAllBlank (s : String) : Bool := s.toList.all isBlank

/-! ## §3. Words. -/

/-- The maximal runs of characters that are not blank, in order.  No word is
empty. -/
def wordsOf : List Char → List (List Char)
  | [] => []
  | c :: cs =>
    if isBlank c then wordsOf cs
    else
      match cs, wordsOf cs with
      | d :: _, w :: ws => if isBlank d then [c] :: w :: ws else (c :: w) :: ws
      | _, ws => [c] :: ws

/-- The words of a text. -/
def words (s : String) : List String := (wordsOf s.toList).map String.ofList

end CqlToSql.Text
