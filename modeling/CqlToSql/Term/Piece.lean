/-
  CqlToSql.Term.Piece
  ───────────────────
  **The pieces of a search term.**  In a search term `*` stands for any
  sequence of characters, `?` for any one character and `^` for the start or
  the end of the field; a backslash takes the special meaning from the
  character after it.  Reading a term into pieces settles this once, and each
  SQL form of a term is then written piece by piece.
-/

namespace CqlToSql.Term

/-- A piece of a search term. -/
inductive Piece where
  /-- This very character. -/
  | literal (c : Char)
  /-- Any sequence of characters. -/
  | anySequence
  /-- Any one character. -/
  | anyOne
  /-- Start or end of the field. -/
  | anchor
  /-- A backslash at the end of the term, which has nothing to escape. -/
  | loneBackslash
  deriving Repr, DecidableEq

/-- The meaning of a character that no backslash stands before. -/
def Piece.ofChar (c : Char) : Piece :=
  if c = '*' then .anySequence
  else if c = '?' then .anyOne
  else if c = '^' then .anchor
  else .literal c

/-- The pieces of a search term. -/
def pieces : List Char → List Piece
  | [] => []
  | ['\\'] => [.loneBackslash]
  | '\\' :: c :: cs => .literal c :: pieces cs
  | c :: cs => .ofChar c :: pieces cs

/-- Masks part of a field. -/
def Piece.isWildcard : Piece → Bool
  | .anySequence => true
  | .anyOne => true
  | _ => false

/-- Some piece of the term masks part of a field. -/
def hasWildcard (term : String) : Bool := (pieces term.toList).any Piece.isWildcard

end CqlToSql.Term
