/-
  CqlToSql.Term.Like
  ──────────────────
  A search term as a `LIKE` pattern.  In such a pattern `%` stands for any
  sequence, `_` for any one character, and a backslash takes the special
  meaning away.  The pattern is ready to stand between single quotes, so a
  single quote is doubled.
-/
import CqlToSql.Term.Piece

namespace CqlToSql.Term

/-- A single quote inside an SQL literal is written twice. -/
def doubleQuote (c : Char) : List Char := if c = '\'' then ['\'', '\''] else [c]

/-- Needs a backslash in a pattern to stand for itself, or had one in the
search term. -/
def isLikeSpecial (c : Char) : Bool :=
  c == '%' || c == '_' || c == '\\' || c == '?' || c == '*'

/-- The pattern of one piece.  Anchors have no meaning in a pattern and stand
for themselves. -/
def Piece.like : Piece → List Char
  | .literal c => if isLikeSpecial c then ['\\', c] else doubleQuote c
  | .anySequence => ['%']
  | .anyOne => ['_']
  | .anchor => ['^']
  | .loneBackslash => ['\\', '\\']

/-- The `LIKE` pattern of a search term. -/
def like (term : String) : String :=
  String.ofList ((pieces term.toList).flatMap Piece.like)

end CqlToSql.Term
