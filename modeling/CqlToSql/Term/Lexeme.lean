/-
  CqlToSql.Term.Lexeme
  ────────────────────
  A word of a search term as an operand of a full text query.  A star at the
  end of the word asks for all words with that beginning and is written `:*`;
  other masks, and anchors, are refused.  Characters that have a meaning in a
  full text query get a backslash, single quotes are doubled, and those the
  word starts with are left out, because an operand cannot begin with one.
-/
import CqlToSql.Fault
import CqlToSql.Term.Piece
import CqlToSql.Text.Blank

namespace CqlToSql.Term

/-- Has a meaning in a full text query. -/
def isQuerySpecial (c : Char) : Bool :=
  ['&', '!', '|', '(', ')', '<', '>', '*', ':', '\\'].contains c

/-- What a literal character is written as; `started` tells whether anything
of the operand has been written. -/
def lexemeChar (started : Bool) (c : Char) : List Char :=
  if c = '\'' then (if started then ['\'', '\''] else [])
  else if isQuerySpecial c then ['\\', c]
  else [c]

/-- The operand of a list of pieces. -/
def lexemePieces (started : Bool) : List Piece → Except Fault (List Char)
  | [] => .ok []
  | .literal c :: ps =>
    let text := lexemeChar started c
    match lexemePieces (started || !text.isEmpty) ps with
    | .error fault => .error fault
    | .ok rest => .ok (text ++ rest)
  | [.anySequence] => .ok [':', '*']
  | .anySequence :: _ => .error (.query .innerTruncation)
  | .anyOne :: _ => .error (.query .singleMask)
  | .anchor :: _ => .error (.query .anchor)
  | .loneBackslash :: _ => .ok []

/-- The operand of a word of a search term. -/
def lexeme (word : String) : Except Fault String :=
  (lexemePieces false (pieces (Text.trim word).toList)).map String.ofList

end CqlToSql.Term
