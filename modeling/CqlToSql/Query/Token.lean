/-
  CqlToSql.Query.Token
  ────────────────────
  **Tokens of query text.**  `scan` cuts a query text into tokens and notes at
  which byte each of them starts.  Blanks separate tokens and mean nothing
  else; a comparison symbol is as long as it can be; a word goes on to the
  next blank or delimiter; a quoted term keeps its backslash escapes as they
  are written.

  The only text that cannot be cut is one where a quoted term is not closed;
  the fault then names the opening quote.
-/
import CqlToSql.Text.Blank

namespace CqlToSql

open CqlToSql.Text

/-! ## §1. Tokens. -/

/-- Comparison symbols. -/
inductive Comparison where
  | equal
  | exact
  | unequal
  | less
  | greater
  | atMost
  | atLeast
  deriving Repr, DecidableEq, Inhabited

/-- The symbol as written. -/
def Comparison.text : Comparison → String
  | .equal => "="
  | .exact => "=="
  | .unequal => "<>"
  | .less => "<"
  | .greater => ">"
  | .atMost => "<="
  | .atLeast => ">="

/-- A token of query text. -/
inductive Token where
  | openParen
  | closeParen
  | slash
  | symbol (c : Comparison)
  /-- Unquoted text; never empty, without blanks and delimiters. -/
  | word (text : String)
  /-- What stands between two double quotes, escapes included. -/
  | quoted (text : String)
  deriving Repr, DecidableEq, Inhabited

/-- The token as it stands in query text. -/
def Token.spelling : Token → List Char
  | .openParen => ['(']
  | .closeParen => [')']
  | .slash => ['/']
  | .symbol c => c.text.toList
  | .word text => text.toList
  | .quoted text => '"' :: text.toList ++ ['"']

/-- The token as faults name it. -/
def Token.describe : Token → String
  | .openParen => "'('"
  | .closeParen => "')'"
  | .slash => "'/'"
  | .symbol c => "'" ++ c.text ++ "'"
  | .word text => "'" ++ text ++ "'"
  | .quoted text => "\"" ++ text ++ "\""

/-- A token and the byte of the query text where it starts. -/
structure Located where
  token : Token
  position : Nat
  deriving Repr, DecidableEq

/-! ## §2. The token at the start of a text. -/

/-- Ends a word: a blank or one of `( ) = < > " /`. -/
def isDelimiter (c : Char) : Bool :=
  isBlank c || c == '(' || c == ')' || c == '=' || c == '<' || c == '>' || c == '"' || c == '/'

/-- The text up to the closing quote, and what follows the quote.  A
backslash keeps the character after it from closing the text. -/
def quotedBody : List Char → Option (List Char × List Char)
  | [] => none
  | '"' :: cs => some ([], cs)
  | '\\' :: c :: cs => (quotedBody cs).map fun (body, rest) => ('\\' :: c :: body, rest)
  | c :: cs => (quotedBody cs).map fun (body, rest) => (c :: body, rest)

/-- The token that the text `c :: cs` starts with, where `c` is not blank, and
the text after it; nothing if it is a quoted term that is not closed. -/
def firstToken (c : Char) (cs : List Char) : Option (Token × List Char) :=
  match c, cs with
  | '(', _ => some (.openParen, cs)
  | ')', _ => some (.closeParen, cs)
  | '/', _ => some (.slash, cs)
  | '=', '=' :: rest => some (.symbol .exact, rest)
  | '=', _ => some (.symbol .equal, cs)
  | '<', '=' :: rest => some (.symbol .atMost, rest)
  | '<', '>' :: rest => some (.symbol .unequal, rest)
  | '<', _ => some (.symbol .less, cs)
  | '>', '=' :: rest => some (.symbol .atLeast, rest)
  | '>', _ => some (.symbol .greater, cs)
  | '"', _ => (quotedBody cs).map fun (body, rest) => (.quoted (String.ofList body), rest)
  | _, _ =>
    some (.word (String.ofList ((c :: cs).takeWhile (!isDelimiter ·))),
      (c :: cs).dropWhile (!isDelimiter ·))

theorem isDelimiter_eq_false_iff {c : Char} :
    isDelimiter c = false ↔ isBlank c = false ∧ c ≠ '(' ∧ c ≠ ')' ∧ c ≠ '=' ∧ c ≠ '<' ∧ c ≠ '>'
      ∧ c ≠ '"' ∧ c ≠ '/' := by
  simp [isDelimiter, and_assoc]

theorem quotedBody_length {cs body rest : List Char} (h : quotedBody cs = some (body, rest)) :
    rest.length < cs.length := by
  fun_induction quotedBody cs generalizing body with
  | case1 => simp at h
  | case2 cs =>
    simp only [Option.some.injEq, Prod.mk.injEq] at h
    simp [h.2]
  | case3 c cs ih =>
    obtain ⟨⟨b, r⟩, hr, he⟩ := Option.map_eq_some_iff.1 h
    simp only [Prod.mk.injEq] at he
    obtain ⟨-, rfl⟩ := he
    have := ih hr
    simp only [List.length_cons]
    omega
  | case4 c cs _ _ ih =>
    obtain ⟨⟨b, r⟩, hr, he⟩ := Option.map_eq_some_iff.1 h
    simp only [Prod.mk.injEq] at he
    obtain ⟨-, rfl⟩ := he
    have := ih hr
    simp only [List.length_cons]
    omega

/-- A token takes at least one character: what begins no other token and is
not blank does not end a word. -/
theorem firstToken_length {c : Char} {cs rest : List Char} {t : Token} (hc : isBlank c = false)
    (h : firstToken c cs = some (t, rest)) : rest.length ≤ cs.length := by
  unfold firstToken at h
  split at h
  case h_11 =>
    obtain ⟨⟨b, r⟩, hr, he⟩ := Option.map_eq_some_iff.1 h
    simp only [Prod.mk.injEq] at he
    obtain ⟨-, rfl⟩ := he
    exact Nat.le_of_lt (quotedBody_length hr)
  case h_12 hopen hclose hslash hequal hless hgreater hquote _ _ _ _ =>
    have hword : isDelimiter c = false :=
      isDelimiter_eq_false_iff.2 ⟨hc, hopen, hclose, hequal, hless, hgreater, hquote, hslash⟩
    simp only [Option.some.injEq, Prod.mk.injEq] at h
    rw [← h.2, List.dropWhile_cons, if_pos (by simp [hword])]
    exact (List.dropWhile_suffix _).length_le
  all_goals
    simp only [Option.some.injEq, Prod.mk.injEq] at h
    simp [← h.2]

/-! ## §3. The tokens of a text. -/

/-- The tokens of `cs`, which starts at byte `position` of the query text.
The fault is the byte of a quote that is not closed. -/
def scanFrom (position : Nat) : List Char → Except Nat (List Located)
  | [] => .ok []
  | c :: cs =>
    if isBlank c then scanFrom (position + c.utf8Size) cs
    else
      match _h : firstToken c cs with
      | none => .error position
      | some (token, rest) =>
        match scanFrom (position + byteLength token.spelling) rest with
        | .ok tokens => .ok ({ token, position } :: tokens)
        | .error fault => .error fault
termination_by cs => cs.length
decreasing_by
  · simp
  · rename_i hblank
    have := firstToken_length (by simpa using hblank) _h
    simp only [List.length_cons]
    omega

/-- The tokens of a query text, or the byte of a quote that is not closed. -/
def scan (text : String) : Except Nat (List Located) := scanFrom 0 text.toList

/-- The byte where the `i`-th token starts; past the last token, where the
text ends. -/
def tokenPosition (text : String) (tokens : List Located) (i : Nat) : Nat :=
  match tokens.drop i with
  | t :: _ => t.position
  | [] => byteLength text.toList

end CqlToSql
