/-
  CqlToSql.Proofs.Condition.LiteralText
  ─────────────────────────────────────
  **Any text can be searched for as it is.**  In a search term a backslash
  takes the special meaning from the character behind it, so a text is
  searched literally by the query

      index == "escaped text"

  Three readers stand between the text and what the database compares: quoted
  terms keep their escapes, the clause is read off the query text, and the
  escapes are resolved when the pattern is written.  Main statement: the
  pattern that comes out of all three has the characters of the text, each as
  itself.
-/
import CqlToSql.Proofs.Condition.Outcome
import CqlToSql.Proofs.Query.Printing
import CqlToSql.Proofs.Term.Pattern

namespace CqlToSql

open CqlToSql.Text CqlToSql.Sql CqlToSql.Term

/-! ## §1. Escaped texts. -/

/-- Has a meaning of its own in a quoted search term. -/
def isTermSpecial (c : Char) : Bool := ['\\', '"', '*', '?', '^'].contains c

/-- The characters with a backslash before each special one. -/
def escapeChars : List Char → List Char
  | [] => []
  | c :: cs => if isTermSpecial c then '\\' :: c :: escapeChars cs else c :: escapeChars cs

/-- The text as a search term that stands for it literally. -/
def escapeText (s : String) : String := String.ofList (escapeChars s.toList)

theorem isTermSpecial_eq_false_iff {c : Char} :
    isTermSpecial c = false ↔ c ≠ '\\' ∧ c ≠ '"' ∧ c ≠ '*' ∧ c ≠ '?' ∧ c ≠ '^' := by
  simp [isTermSpecial]

/-- No quote of an escaped text closes the quoted term. -/
theorem isQuotable_escapeChars (cs : List Char) : isQuotable (escapeChars cs) = true := by
  induction cs with
  | nil => rfl
  | cons c cs ih =>
    rw [escapeChars]
    by_cases hs : isTermSpecial c = true
    · rw [if_pos hs]
      exact ih
    · rw [if_neg hs]
      obtain ⟨hbackslash, hquote, -⟩ := isTermSpecial_eq_false_iff.1 (by simpa using hs)
      rw [isQuotable, ih, Bool.and_true, bne_iff_ne]
      · exact hquote
      · rintro rfl
        exact absurd rfl hbackslash
      · rintro d ds rfl
        exact absurd rfl hbackslash

/-- The masks of an escaped text are its characters. -/
theorem termMasks_escapeChars (cs : List Char) :
    termMasks (escapeChars cs) = cs.map .literal := by
  induction cs with
  | nil => rfl
  | cons c cs ih =>
    rw [escapeChars, List.map_cons, ← ih]
    by_cases hs : isTermSpecial c = true
    · rw [if_pos hs, termMasks]
    · rw [if_neg hs]
      obtain ⟨hbackslash, -, hstar, hone, -⟩ :=
        isTermSpecial_eq_false_iff.1 (by simpa using hs)
      rw [termMasks_cons hbackslash, Mask.ofTermChar, if_neg hstar, if_neg hone]

/-! ## §2. The clause of a query text. -/

/-- A printable clause is read off its text. -/
theorem Clause.parse_text {c : Clause} (hc : c.IsPrintable) :
    Query.parse c.render = .ok (.clause c) := by
  obtain ⟨ts, hderived, hlex⟩ := Query.IsPrintable.lexes_render (q := .clause c) hc
  exact Query.parse_of_lexes hderived hlex

/-- The clause that searches `index` for exactly this text. -/
def exactClause (index s : String) : Clause :=
  { index, relation := { base := "==", modifiers := [] }, term := escapeText s }

theorem isPrintable_exactClause {index : String} (hi : IsWord index) (s : String) :
    (exactClause index s).IsPrintable := by
  refine ⟨hi, .inl ⟨.exact, rfl⟩, by simp [exactClause], ?_⟩
  show isQuotable (String.ofList (escapeChars s.toList)).toList = true
  rw [String.toList_ofList]
  exact isQuotable_escapeChars s.toList

theorem render_exactClause (index s : String) :
    (exactClause index s).render = index ++ " == \"" ++ escapeText s ++ "\"" := by
  simp [exactClause, Clause.render, renderModifiers, ← String.toList_inj]

/-! ## §3. The condition without declarations. -/

namespace Condition

variable {scope : Scope} {c : Clause}

/-- Without tables there is nothing to join. -/
theorem qualifier?_of_no_tables (hs : scope.schema = {}) (name : String) :
    scope.qualifier? name = none := by
  unfold Scope.qualifier?
  cases cutFirst '.' name with
  | none => rfl
  | some cut =>
    dsimp only
    split
    · rfl
    · rw [if_pos]
      rw [hs]
      rfl

/-- A clause that neither joins nor has an index with a meaning of its own is
one on a field. -/
theorem result_clause_of_field (hall : sameAsciiFold c.index allRecords = false)
    (hchoice : sameAsciiFold c.index serverChoice = false)
    (hq : scope.qualifier? c.index = none) (hm : scope.mode = .strict) :
    (clause scope c).result = (field scope c.index c).result := by
  have hterm : termQualifier? scope c.term = none := by
    unfold termQualifier?
    rw [hm]
  rw [clause_of_unqualified hall hq, hterm]
  dsimp only
  rw [if_neg (by simp [hchoice])]

/-- A field that nothing is declared for is a path into its column. -/
theorem field_of_no_tables {column index : String} (hs : scope.schema = {})
    (hc : scope.columns = [column]) (hq : '\'' ∉ index.toList) :
    scope.field index = .ok (CqlToSql.Field.at column index) ∧ scope.indexes index = {} := by
  have hresolve : scope.resolve index = (column, index) := by
    unfold Scope.resolve Scope.column
    rw [hc]
    rfl
  have hindexes : scope.indexes index = {} := by
    unfold Scope.indexes
    rw [hs]
    rfl
  refine ⟨?_, hindexes⟩
  unfold Scope.field
  rw [if_neg (by simpa using hq), hresolve, hindexes]
  rfl

/-- The condition of an exact search without declarations. -/
theorem result_exactClause {column index : String} (s : String) (hs : scope.schema = {})
    (hc : scope.columns = [column]) (hmode : scope.mode = .strict) (hq : '\'' ∉ index.toList)
    (hk : index ≠ keyColumn) (hall : sameAsciiFold index allRecords = false)
    (hchoice : sameAsciiFold index serverChoice = false) :
    (clause scope (exactClause index s)).result = .ok
      ("lower(f_unaccent(" ++ textPath column index ++ ")) LIKE lower(f_unaccent('"
        ++ like (escapeText s) ++ "'))") := by
  obtain ⟨hfield, hindexes⟩ := field_of_no_tables hs hc hq
  have hstrategy : strategy? (lowerCase "==") Matching.initial = some (.pattern false) := by
    decide +kernel
  calc (clause scope (exactClause index s)).result
      = (field scope index (exactClause index s)).result :=
        result_clause_of_field hall hchoice (qualifier?_of_no_tables hs index) hmode
    _ = (comparison (exactClause index s) (CqlToSql.Field.at column index) {}).result := by
        rw [result_field_of_plain hfield rfl, if_neg hk, hindexes]
    _ = ((Strategy.pattern false).condition (escapeText s) (CqlToSql.Field.at column index)
          Matching.initial {}).result := result_comparison rfl hstrategy
    _ = _ := by
        -- no index serves the search, so both differences are folded away
        show (pattern (escapeText s) false _ Matching.initial {}).result = _
        rw [result_pattern]
        simp [Matching.initial, Matching.ignoresCaseAndAccents, patternMatch, Folding.ofIndex,
          FieldIndexes.forPattern, Folding.apply, lowered, unaccented, literal,
          CqlToSql.Field.at, ← String.toList_inj]

end Condition

/-! ## §4. From query text to pattern. -/

/-- **Any text can be searched for as it is**, on every field of one column:
the query with the escaped text is translated, and the pattern it compares
with stands for the characters of the text and nothing else. -/
theorem Translator.conditionOf_escaped_text (column : String) (choice : List String)
    {index : String} (hi : IsWord index) (hq : '\'' ∉ index.toList) (hk : index ≠ "id")
    (hall : sameAsciiFold index "cql.allRecords" = false)
    (hchoice : sameAsciiFold index "cql.serverChoice" = false) (s : String) :
    ∃ body pattern,
      (Translator.conditionOf { columns := [column], serverChoice := choice }
        (index ++ " == \"" ++ escapeText s ++ "\"")).result = .ok
          ("lower(f_unaccent(" ++ textPath column index ++ ")) LIKE lower(f_unaccent('" ++ body
            ++ "'))") ∧
      undouble body.toList = some pattern ∧
      patternMasks pattern = some (s.toList.map .literal) := by
  obtain ⟨pattern, hbody, hmasks⟩ := exists_undouble_like (escapeText s)
  refine ⟨like (escapeText s), pattern, ?_, hbody, ?_⟩
  · -- the text is read as the clause, which is translated as a query of its own
    have hparse := Clause.parse_text (isPrintable_exactClause hi s)
    rw [render_exactClause] at hparse
    unfold Translator.conditionOf Translator.parse
    rw [hparse]
    show (Logged.ofExcept (.ok (Query.clause (exactClause index s))) >>= _).result = _
    rw [Logged.result_bind_ok (Logged.result_ofExcept _), Translator.result_condition,
      Condition.query_clause]
    exact Condition.result_exactClause s rfl rfl rfl hq hk hall hchoice
  · rw [hmasks]
    unfold escapeText
    rw [String.toList_ofList, termMasks_escapeChars]

/-- A text with the special characters of all three readers, searched in a
field whose name starts with an operator. -/
theorem Translator.conditionOf_escaped_specials :
    let s := "\\\"*?^%_'\\"
    IsWord "and.or" ∧ escapeText s = "\\\\\\\"\\*\\?\\^%_'\\\\" ∧
      ∃ body pattern,
        (Translator.conditionOf { columns := ["users.jsonb"], serverChoice := [] }
          ("and.or" ++ " == \"" ++ escapeText s ++ "\"")).result = .ok
            ("lower(f_unaccent(" ++ textPath "users.jsonb" "and.or"
              ++ ")) LIKE lower(f_unaccent('" ++ body ++ "'))") ∧
        undouble body.toList = some pattern ∧
        patternMasks pattern = some (s.toList.map .literal) := by
  intro s
  have hi : IsWord "and.or" := by decide
  exact ⟨hi, by decide, Translator.conditionOf_escaped_text "users.jsonb" [] hi (by decide)
    (by decide) (by decide) (by decide) s⟩

end CqlToSql
