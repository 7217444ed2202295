/-
  CqlToSql.Text.Identifier
  ────────────────────────
  Names that can stand in SQL without quotes: an ASCII letter or underscore,
  then at most 48 ASCII letters, digits or underscores.
-/
import CqlToSql.Text.CodePoint

namespace CqlToSql.Text

/-- Is an ASCII letter or an underscore. -/
def startsIdentifier (c : Char) : Bool :=
  inRanges [(0x41, 0x5A), (0x5F, 0x5F), (0x61, 0x7A)] c

/-- Is an ASCII letter, an ASCII digit or an underscore. -/
def continuesIdentifier (c : Char) : Bool := startsIdentifier c || inRanges [(0x30, 0x39)] c

/-- Can stand in SQL without quotes. -/
def isIdentifier (s : String) : Bool :=
  match s.toList with
  | [] => false
  | c :: cs => startsIdentifier c && decide (cs.length ≤ 48) && cs.all continuesIdentifier

end CqlToSql.Text
