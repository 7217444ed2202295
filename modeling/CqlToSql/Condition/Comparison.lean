/-
  CqlToSql.Condition.Comparison
  ─────────────────────────────
  **Comparing a field with a search term.**  The relation and its modifiers
  choose one of three strategies:

      words    — full text search: the words of the term, joined by the full
                 text operator of the relation
      pattern  — `LIKE` with the term's masks; first folded like the index
                 that serves it, then as the modifiers ask
      typed    — a plain comparison, of numbers or of texts

  A search that no declared index serves is compiled all the same, with a
  warning.
-/
import CqlToSql.Condition.Scope
import CqlToSql.Logged
import CqlToSql.Query.Matching
import CqlToSql.Term.Lexeme
import CqlToSql.Term.Like
import CqlToSql.Text.Numeric

namespace CqlToSql.Condition

open CqlToSql.Text

/-! ## §1. Folding. -/

/-- The text with SQL's literal quotes around it. -/
def literal (body : String) : String := "'" ++ body ++ "'"

/-- Which differences of two texts are folded away before they are compared. -/
structure Folding where
  /-- Letter case. -/
  lower : Bool
  /-- Accents. -/
  unaccent : Bool
  deriving Repr, DecidableEq

/-- The expression with its accents removed. -/
def unaccented (expression : String) : String := "f_unaccent(" ++ expression ++ ")"

/-- The expression in lower case. -/
def lowered (expression : String) : String := "lower(" ++ expression ++ ")"

/-- The folded expression. -/
def Folding.apply (f : Folding) (expression : String) : String :=
  let e := if f.unaccent then unaccented expression else expression
  if f.lower then lowered e else e

/-- The folding of an index; without one both differences are folded away. -/
def Folding.ofIndex : Option Index → Folding
  | some i => { lower := !i.isCaseSensitive, unaccent := i.removesAccents }
  | none => { lower := true, unaccent := true }

/-- The folding that modifiers ask for. -/
def Folding.ofMatching (m : Matching) : Folding :=
  { lower := m.letterCase != .respect, unaccent := m.accents != .respect }

/-! ## §2. Words. -/

/-- The text without the stars that stand after spaces, and without those
spaces; `spaces` counts the spaces just read. -/
def dropStarsFrom (spaces : Nat) : List Char → List Char
  | [] => List.replicate spaces ' '
  | c :: cs =>
    if c = ' ' then dropStarsFrom (spaces + 1) cs
    else if c = '*' ∧ spaces > 0 then dropStarsFrom 0 cs
    else List.replicate spaces ' ' ++ c :: dropStarsFrom 0 cs

/-- The search term without stars that stand after spaces. -/
def dropStrayStars (term : String) : String := String.ofList (dropStarsFrom 0 term.toList)

/-- The full text operands of a list of words. -/
def lexemes : List String → Except Fault (List String)
  | [] => .ok []
  | w :: ws =>
    match Term.lexeme w with
    | .error fault => .error fault
    | .ok l =>
      match lexemes ws with
      | .error fault => .error fault
      | .ok ls => .ok (l :: ls)

/-- Full text search for the words of the term, which `operator` joins. -/
def words (term operator : String) (field : Field) (matching : Matching)
    (indexes : FieldIndexes) : Logged String := do
  Logged.warnIf indexes.fullText.isNone
    ("Doing full text search without full text index for " ++ field.text)
  Logged.warnIf (matching.accents == .respect)
    ("Ignoring /respectAccents modifier for full text search " ++ field.text)
  Logged.warnIf (matching.letterCase == .respect)
    ("Ignoring /respectCase modifier for full text search " ++ field.text)
  let term := trim (dropStrayStars term)
  if term = "*" then
    pure "true"
  else if term = "" then
    pure (field.text ++ " ~ ''")
  else do
    let operands ← Logged.ofExcept (lexemes (Text.words term))
    let folding : Folding :=
      { lower := false, unaccent := (indexes.fullText.map Index.removesAccents).getD true }
    pure ("to_tsvector('simple', " ++ folding.apply field.text ++ ") @@ to_tsquery('simple', "
      ++ folding.apply (literal (joinWith operator operands)) ++ ")")

/-! ## §3. Patterns. -/

/-- One match of a field with a pattern. -/
def patternMatch (negated : Bool) (folding : Folding) (text pattern : String) : String :=
  folding.apply text ++ (if negated then " NOT LIKE " else " LIKE ") ++ folding.apply pattern

/-- Match of the field with the term's pattern. -/
def pattern (term : String) (negated : Bool) (field : Field) (matching : Matching)
    (indexes : FieldIndexes) : Logged String := do
  Logged.warnIf (indexes.gin.isNone && indexes.like.isNone)
    ("Doing LIKE search without GIN index for " ++ field.text)
  let body := literal (Term.like term)
  let served := patternMatch negated (Folding.ofIndex indexes.forPattern) field.text body
  if matching.ignoresCaseAndAccents then
    pure served
  else
    pure (served ++ " AND " ++ patternMatch negated (Folding.ofMatching matching) field.text body)

/-! ## §4. Typed comparisons. -/

/-- Comparison of the field with the term by an SQL operator. -/
def typed (term operator : String) (field : Field) (matching : Matching)
    (indexes : FieldIndexes) : Logged String := do
  Logged.warnIf indexes.forComparison.isNone ("Doing SQL query without index for " ++ field.text)
  match matching.format with
  | .number =>
    if isNumeric term then
      pure ("(" ++ field.text ++ ")::numeric " ++ operator ++ term)
    else
      pure ("(" ++ field.text ++ ")::numeric " ++ operator ++ literal (Term.like term))
  | .string => pure (field.text ++ " " ++ operator ++ literal (Term.like term))

/-! ## §5. The choice. -/

/-- How a field and a term are compared. -/
inductive Strategy where
  /-- Full text search, with the operator between words. -/
  | words (operator : String)
  | pattern (negated : Bool)
  /-- Plain comparison, with the SQL operator. -/
  | typed (operator : String)
  deriving Repr, DecidableEq

/-- The strategy of a relation, which is given in lower case. -/
def strategy? (relation : String) (m : Matching) : Option Strategy :=
  if relation = "=" then
    if m.format = .number then some (.typed "=")
    else if m.ignoresCaseAndAccents then some (.words "<->")
    else some (.pattern false)
  else if relation = "adj" then some (.words "<->")
  else if relation = "all" then some (.words " & ")
  else if relation = "any" then some (.words " | ")
  else if relation = "==" then
    if m.format = .string then some (.pattern false) else some (.typed "=")
  else if relation = "<>" then
    if m.format = .string then some (.pattern true) else some (.typed "<>")
  else if relation ∈ ["<", ">", "<=", ">="] then some (.typed relation)
  else none

/-- The condition a strategy gives. -/
def Strategy.condition (strategy : Strategy) (term : String) (field : Field)
    (matching : Matching) (indexes : FieldIndexes) : Logged String :=
  match strategy with
  | .words operator => Condition.words term operator field matching indexes
  | .pattern negated => Condition.pattern term negated field matching indexes
  | .typed operator => Condition.typed term operator field matching indexes

/-- Comparison of a field with the term of a clause. -/
def comparison (clause : Clause) (field : Field) (indexes : FieldIndexes) : Logged String := do
  let matching ← Logged.ofExcept (Matching.ofModifiers clause.relation.modifiers)
  let relation := lowerCase clause.relation.base
  match strategy? relation matching with
  | none => Logged.fail (.feature (.relation relation clause))
  | some strategy =>
    let sql ← strategy.condition clause.term field matching indexes
    Logged.write .debug ("Index " ++ field.text ++ " generated SQL " ++ sql)
    pure sql

end CqlToSql.Condition
