/-
  CqlToSql.Term.Plain
  ───────────────────
  A search term as a plain SQL string.  Masks and anchors have no meaning in
  a plain string and are refused, and so is a backslash with nothing to
  escape; the first of them decides the fault.
-/
import CqlToSql.Fault
import CqlToSql.Term.Like

namespace CqlToSql.Term

/-- The text of one piece of `term`. -/
def Piece.plain (term : String) : Piece → Except Fault (List Char)
  | .literal c => .ok (doubleQuote c)
  | .anySequence => .error (.query (.maskOrAnchor '*' term))
  | .anyOne => .error (.query (.maskOrAnchor '?' term))
  | .anchor => .error (.query (.maskOrAnchor '^' term))
  | .loneBackslash => .error (.query (.trailingBackslash term))

/-- The text of a list of pieces of `term`. -/
def plainPieces (term : String) : List Piece → Except Fault (List Char)
  | [] => .ok []
  | p :: ps =>
    match p.plain term with
    | .error fault => .error fault
    | .ok text =>
      match plainPieces term ps with
      | .error fault => .error fault
      | .ok rest => .ok (text ++ rest)

/-- The plain SQL string of a search term. -/
def plain (term : String) : Except Fault String :=
  (plainPieces term (pieces term.toList)).map String.ofList

end CqlToSql.Term
