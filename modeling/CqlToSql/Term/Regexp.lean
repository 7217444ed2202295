/-
  CqlToSql.Term.Regexp
  ────────────────────
  A search term as a regular expression for the `~` operator, ready to stand
  between single quotes.
-/
import CqlToSql.Term.Like

namespace CqlToSql.Term

/-- Is written with a backslash in a regular expression. -/
def isRegexpSpecial (c : Char) : Bool := ['.', '+', '(', ')', '\x7b', '\x7d', '[', ']', '$',
  '?', '*', '^', '\\'].contains c

/-- The regular expression of one piece. -/
def Piece.regexp : Piece → List Char
  | .literal c => if isRegexpSpecial c then ['\\', c] else doubleQuote c
  | .anySequence => ['.', '*']
  | .anyOne => ['.']
  | .anchor => ['(', '^', '|', '$', ')']
  | .loneBackslash => ['\\', '\\']

/-- The regular expression of a search term. -/
def regexp (term : String) : String :=
  String.ofList ((pieces term.toList).flatMap Piece.regexp)

end CqlToSql.Term
