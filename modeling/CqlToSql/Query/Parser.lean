/-
  CqlToSql.Query.Parser
  ─────────────────────
  **Reading query text into a query tree.**

      query       ::=  expression [ sortBy key { key } ]
      expression  ::=  operand { (and | or | not) operand }
      operand     ::=  "(" expression ")"  |  [ term relation ] term
      relation    ::=  (symbol | word) { modifier }
      modifier    ::=  "/" word [ symbol term ]
      key         ::=  term { modifier }
      term        ::=  word | quoted

  All operators bind equally tightly and to the left.  A word that is an
  operator or `sortBy`, in any letter case, never is a relation.  A term
  without a relation searches the server's choice of indexes.

  Every reader takes the tokens that are left and returns those it leaves, so
  a failure is described by the tokens in front of which reading stopped.
-/
import CqlToSql.Query.Token
import CqlToSql.Query.Tree
import CqlToSql.Text.LowerCase

namespace CqlToSql

open CqlToSql.Text

/-! ## §1. Why reading stops. -/

/-- What a reader was looking for. -/
inductive Expected where
  | closeParen
  | operatorOrEnd
  | searchTerm
  | modifierName
  | sortIndex
  deriving Repr, DecidableEq

/-- The wording of what was looked for. -/
def Expected.text : Expected → String
  | .closeParen => "')'"
  | .operatorOrEnd => "boolean operator or end of query"
  | .searchTerm => "search term"
  | .modifierName => "modifier name"
  | .sortIndex => "sort index"

/-- Why a query text has no tree. -/
inductive ParseReason where
  | unclosedQuote
  | emptyQuery
  | proximity
  | operatorModifier
  /-- Something else was looked for than the token that was found; `none`
  stands for the end of the query. -/
  | unexpected (expected : Expected) (found : Option Token)
  deriving Repr, DecidableEq

/-- The wording of a reason. -/
def ParseReason.text : ParseReason → String
  | .unclosedQuote => "Unterminated quoted term"
  | .emptyQuery => "Empty query"
  | .proximity => "Boolean operator 'prox' is not supported"
  | .operatorModifier => "Boolean modifiers are not supported"
  | .unexpected expected found =>
    "Expected " ++ expected.text ++ ", found "
      ++ (match found with
          | some token => token.describe
          | none => "end of query")

/-- Where reading stopped: a reason and the tokens that were left. -/
structure Stop where
  reason : ParseReason
  rest : List Token
  deriving Repr, DecidableEq

/-- Reading stopped because something else was looked for. -/
def Stop.unexpected (expected : Expected) (rest : List Token) : Stop :=
  { reason := .unexpected expected rest.head?, rest }

/-- Why and where (in bytes) a query text has no tree. -/
structure ParseFault where
  reason : ParseReason
  position : Nat
  deriving Repr, DecidableEq

/-- The wording of a fault. -/
def ParseFault.message (f : ParseFault) : String :=
  "CQL parse error at position " ++ toString f.position ++ ": " ++ f.reason.text

/-! ## §2. Words with a role. -/

/-- What a word does where an operator may stand. -/
inductive Connective where
  | operator (op : Operator)
  | proximity
  deriving Repr, DecidableEq

/-- The connective a word spells, in any letter case. -/
def connective? (word : String) : Option Connective :=
  let w := lowerCase word
  if w = "and" then some (.operator .and)
  else if w = "or" then some (.operator .or)
  else if w = "not" then some (.operator .not)
  else if w = "prox" then some .proximity
  else none

/-- Never is a relation: an operator or `sortBy`, in any letter case. -/
def isKeyword (word : String) : Bool :=
  (connective? word).isSome || lowerCase word == "sortby"

/-- The relation a token spells, if it can be one. -/
def relationBase? : Token → Option String
  | .symbol c => some c.text
  | .word w => if isKeyword w then none else some w
  | _ => none

/-- The term a token spells, if it is one. -/
def termText? : Token → Option String
  | .word w => some w
  | .quoted q => some q
  | _ => none

/-! ## §3. Terms, modifiers and clauses. -/

/-- Reads a term. -/
def readTerm : List Token → Except Stop (String × List Token)
  | .word w :: rest => .ok (w, rest)
  | .quoted q :: rest => .ok (q, rest)
  | rest => .error (.unexpected .searchTerm rest)

/-- Reads modifiers as long as there are any. -/
def readModifiers : List Token → Except Stop (List Modifier × List Token)
  | .slash :: .word name :: .symbol c :: .word value :: rest =>
    match readModifiers rest with
    | .ok (ms, rest) => .ok ({ name, comparison := some c.text, value := some value } :: ms, rest)
    | .error stop => .error stop
  | .slash :: .word name :: .symbol c :: .quoted value :: rest =>
    match readModifiers rest with
    | .ok (ms, rest) => .ok ({ name, comparison := some c.text, value := some value } :: ms, rest)
    | .error stop => .error stop
  | .slash :: .word _ :: .symbol _ :: rest => .error (.unexpected .searchTerm rest)
  | .slash :: .word name :: rest =>
    match readModifiers rest with
    | .ok (ms, rest) => .ok ({ name, comparison := none, value := none } :: ms, rest)
    | .error stop => .error stop
  | .slash :: rest => .error (.unexpected .modifierName rest)
  | rest => .ok ([], rest)

/-- Reads a search clause. -/
def readClause (tokens : List Token) : Except Stop (Clause × List Token) :=
  match readTerm tokens with
  | .error stop => .error stop
  | .ok (first, rest) =>
    match rest.head?.bind relationBase? with
    | none => .ok (.bare first, rest)
    | some base =>
      match readModifiers rest.tail with
      | .error stop => .error stop
      | .ok (modifiers, rest) =>
        match readTerm rest with
        | .error stop => .error stop
        | .ok (term, rest) => .ok ({ index := first, relation := { base, modifiers }, term }, rest)

/-! ## §4. Readers leave fewer tokens than they get. -/

theorem readTerm_length {ts rest : List Token} {s : String} (h : readTerm ts = .ok (s, rest)) :
    rest.length < ts.length := by
  unfold readTerm at h
  split at h <;> simp_all

theorem readModifiers_length {ts rest : List Token} {ms : List Modifier}
    (h : readModifiers ts = .ok (ms, rest)) : rest.length ≤ ts.length := by
  fun_induction readModifiers ts generalizing ms rest <;> grind

theorem readClause_length {ts rest : List Token} {c : Clause}
    (h : readClause ts = .ok (c, rest)) : rest.length < ts.length := by
  unfold readClause at h
  split at h
  · simp at h
  · rename_i first r hf
    have hr := readTerm_length hf
    split at h
    · simp only [Except.ok.injEq, Prod.mk.injEq] at h
      rw [← h.2]
      exact hr
    · split at h
      · simp at h
      · rename_i ms r' hm
        have hm' := readModifiers_length hm
        have ht : r.tail.length ≤ r.length := by simp
        split at h
        · simp at h
        · rename_i t r'' hs
          have hs' := readTerm_length hs
          simp only [Except.ok.injEq, Prod.mk.injEq] at h
          rw [← h.2]
          omega

/-! ## §5. Expressions. -/

/-- Fewer tokens than `tokens`. -/
abbrev Shorter (tokens : List Token) : Type := { rest : List Token // rest.length < tokens.length }

mutual

/-- Reads an expression in parentheses or a search clause. -/
def readOperand (tokens : List Token) : Except Stop (Query × Shorter tokens) :=
  match tokens with
  | .openParen :: inner =>
    match readExpression inner with
    | .error stop => .error stop
    | .ok (query, ⟨rest, h⟩) =>
      match rest, h with
      | .closeParen :: rest, h =>
        .ok (query, ⟨rest, by simp only [List.length_cons] at h ⊢; omega⟩)
      | rest, _ => .error (.unexpected .closeParen rest)
  | tokens =>
    match h : readClause tokens with
    | .error stop => .error stop
    | .ok (c, rest) => .ok (.clause c, ⟨rest, readClause_length h⟩)
termination_by (tokens.length, 0)

/-- Reads operands with operators between them. -/
def readExpression (tokens : List Token) : Except Stop (Query × Shorter tokens) :=
  match readOperand tokens with
  | .error stop => .error stop
  | .ok (first, ⟨rest, h⟩) =>
    match readChain first rest with
    | .error stop => .error stop
    | .ok (query, ⟨rest', h'⟩) => .ok (query, ⟨rest', by omega⟩)
termination_by (tokens.length, 1)

/-- Reads operators, each with its right operand, after the query `left`. -/
def readChain (left : Query) (tokens : List Token) :
    Except Stop (Query × { rest : List Token // rest.length ≤ tokens.length }) :=
  match tokens with
  | .word w :: rest =>
    match connective? w with
    | none => .ok (left, ⟨.word w :: rest, Nat.le_refl _⟩)
    | some .proximity => .error { reason := .proximity, rest := .word w :: rest }
    | some (.operator op) =>
      match rest with
      | .slash :: rest => .error { reason := .operatorModifier, rest := .slash :: rest }
      | rest =>
        match readOperand rest with
        | .error stop => .error stop
        | .ok (right, ⟨rest', h⟩) =>
          match readChain (.boolean op left right) rest' with
          | .error stop => .error stop
          | .ok (query, ⟨rest'', h'⟩) =>
            .ok (query, ⟨rest'', by simp only [List.length_cons]; omega⟩)
  | tokens => .ok (left, ⟨tokens, Nat.le_refl _⟩)
termination_by (tokens.length, 0)

end

/-! ## §6. Queries. -/

/-- Reads sort keys as long as there are any. -/
def readKeys (tokens : List Token) : Except Stop (List SortKey × List Token) :=
  match tokens with
  | [] => .ok ([], [])
  | t :: rest =>
    match termText? t with
    | none => .ok ([], t :: rest)
    | some index =>
      match _h : readModifiers rest with
      | .error stop => .error stop
      | .ok (modifiers, rest') =>
        match readKeys rest' with
        | .error stop => .error stop
        | .ok (keys, rest'') => .ok ({ index, modifiers } :: keys, rest'')
termination_by tokens.length
decreasing_by
  have := readModifiers_length _h
  simp only [List.length_cons]
  omega

/-- The query, if no token is left. -/
def atEnd (query : Query) : List Token → Except Stop Query
  | [] => .ok query
  | rest => .error (.unexpected .operatorOrEnd rest)

/-- Reads what follows the expression of a query: nothing, or sort keys. -/
def readSorting (query : Query) : List Token → Except Stop Query
  | .word w :: rest =>
    if sameAsciiFold w "sortby" then
      match readKeys rest with
      | .error stop => .error stop
      | .ok ([], rest) => .error (.unexpected .sortIndex rest)
      | .ok (keys, rest) => atEnd (.sorted query keys) rest
    else atEnd query (.word w :: rest)
  | rest => atEnd query rest

/-- The query tree of a list of tokens. -/
def readQuery (tokens : List Token) : Except Stop Query :=
  match tokens with
  | [] => .error { reason := .emptyQuery, rest := [] }
  | tokens =>
    match readExpression tokens with
    | .error stop => .error stop
    | .ok (query, rest) => readSorting query rest.1

/-- The query tree of a query text. -/
def Query.parse (text : String) : Except ParseFault Query :=
  match scan text with
  | .error position => .error { reason := .unclosedQuote, position }
  | .ok located =>
    match readQuery (located.map Located.token) with
    | .ok query => .ok query
    | .error stop =>
      .error { reason := stop.reason,
               position := tokenPosition text located (located.length - stop.rest.length) }

end CqlToSql
