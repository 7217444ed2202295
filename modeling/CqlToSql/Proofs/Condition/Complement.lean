/-
  CqlToSql.Proofs.Condition.Complement
  ────────────────────────────────────
  **Inequality and equality of texts.**  Both compare a field with the pattern
  of the term, first folded like the index and then, unless case and accents
  are ignored, as the modifiers ask:

      ==   matches under the index  and  matches under the modifiers
      <>   does not match under the index  and  does not match under the modifiers

  The conditions are read as SQL and evaluated for a value of the field, with
  any functions in the place of `lower` and `f_unaccent`.

  Main statement: inequality is the complement of equality for a value just
  when there is one comparison alone or the two of them agree on that value.
  A value that matches under one folding and not under the other is neither
  equal nor unequal.
-/
import CqlToSql.Proofs.Sql.Like

namespace CqlToSql

open CqlToSql.Text CqlToSql.Sql CqlToSql.Condition

/-! ## §1. Fields are operands. -/

variable {s : String}

theorem isOperandText_empty : IsOperandText "" := ⟨keeps_nil, by decide⟩

/-- What is in parentheses has no operator outside them. -/
theorem isOperandText_parentheses (h : Balanced true s) : IsOperandText ("(" ++ s ++ ")") where
  balanced := Balanced.between (k := 1) (by decide) h (by decide)
  plain := by
    intro word _
    rw [String.append_assoc, tokens_opening, tokens_append_closing h.endsOutside rfl]
    exact cutTop_parenthesized_last (closed_tokens h) rfl

theorem isOperand_stepTokens (parts : List String) : IsOperand (stepTokens parts) := by
  intro word hword
  fun_induction stepTokens parts with
  | case1 => exact ⟨rfl, rfl⟩
  | case2 part => exact ⟨rfl, rfl⟩
  | case3 part next parts ih =>
    have hstep : Passes (Token.isKeyword word) [.symbol '-', .symbol '>', .quoted part.toList] :=
      ⟨rfl, rfl⟩
    exact hstep.append ih

/-- A path in an operand is an operand. -/
theorem Sql.IsOperandText.textPath {column path : String} (h : IsOperandText column)
    (hpath : '\'' ∉ path.toList) : IsOperandText (textPath column path) where
  balanced := h.balanced.textPath (IsBody.of_no_quote hpath).balancedInside
  plain := by
    intro word hword
    rw [tokens_textPath h.balanced.endsOutside hpath]
    exact ((h.isOperand word hword).append (isOperand_stepTokens _ word hword)).uncut

/-- The expression that an index is made on is in parentheses, or a function
applied to the fields of a compound index. -/
theorem Index.isOperandText_expression {i : Index} (hi : i.IsBalanced true) {column text : String}
    (hc : Balanced true column) (h : i.expression column = some text) : IsOperandText text := by
  have hbalanced := hi.balanced_expression hc h
  unfold Index.expression at h
  split at h
  · -- an expression of the schema may hold operators; they are inside the parentheses
    rename_i sql hsql
    cases h
    exact isOperandText_parentheses (hi.expression sql hsql).trim
  · rename_i names _ hnames
    cases h
    have htexts : Balanced true (joinWith " , " (compoundTexts column names)) :=
      Keeps.joinWith (by decide) (balanced_compoundTexts hc (hi.compound names hnames))
    have htext : ∀ inner : String,
        "concat_space_sql(" ++ inner ++ ")" = "concat_space_sql" ++ "(" ++ inner ++ ")" := by
      simp
    refine ⟨hbalanced, fun word hword => ?_⟩
    rw [htext, tokens_call (by decide) htexts]
    exact (isOperand_call (closed_tokens htexts) (by decide) word hword).uncut
  · cases h

/-- The text of a field is an operand, if the configuration is balanced and the
document columns are operands. -/
theorem Scope.isOperandText_field {scope : Scope} (hs : scope.IsBalanced true)
    (hcolumns : ∀ column ∈ scope.columns, IsOperandText column) {index : String}
    {f : CqlToSql.Field} (hf : scope.field index = .ok f) : IsOperandText f.text := by
  obtain ⟨hq, -, htext⟩ := Scope.field_eq_ok hf
  obtain ⟨hcolumn, hpath⟩ :=
    Scope.resolve_cases (P := IsOperandText) isOperandText_empty hcolumns hq
  rcases htext with htext | ⟨i, hi, htext⟩
  · rw [htext]
    exact hcolumn.textPath hpath
  · exact Index.isOperandText_expression (hs.of_mem_indexes hi) hcolumn.balanced htext

namespace Condition

/-! ## §2. The two conditions. -/

/-- The pattern of a term outside its literal. -/
def patternChars (term : String) : List Char := (Term.pieces term.toList).flatMap Term.Piece.pattern

theorem undouble_like (term : String) :
    undouble (Term.like term).toList = some (patternChars term) := by
  rw [Term.like, String.toList_ofList]
  exact undouble_flatMap Term.Piece.undouble_like _

/-- The value matches the term when both are folded in one way. -/
def FoldedMatch (fns : TextFunctions) (folding : Folding) (term : String) (value : List Char) :
    Prop :=
  Term.LikeMatches (foldText fns folding (patternChars term)) (foldText fns folding value)

instance (fns : TextFunctions) (folding : Folding) (term : String) (value : List Char) :
    Decidable (FoldedMatch fns folding term value) :=
  inferInstanceAs (Decidable (Term.LikeMatches _ _))

variable {f : CqlToSql.Field} {m : Matching} {ix : FieldIndexes} {term sql : String}
  {negated : Bool}

theorem decide_bne_eq_true_iff {p : Prop} [Decidable p] :
    (decide p != negated) = true ↔ (p ↔ negated = false) := by
  cases negated <;> simp

/-- A match of the field is true when each of its comparisons is. -/
theorem evalText_pattern (hf : IsOperandText f.text)
    (h : (pattern term negated f m ix).result = .ok sql) (fns : TextFunctions)
    (value : List Char) :
    evalText (likePredicate fns (tokens f.text) value) sql = .yes ↔
      (FoldedMatch fns (Folding.ofIndex ix.forPattern) term value ↔ negated = false) ∧
        (m.ignoresCaseAndAccents = true ∨
          (FoldedMatch fns (Folding.ofMatching m) term value ↔ negated = false)) := by
  rw [result_pattern] at h
  cases h
  cases hm : m.ignoresCaseAndAccents with
  | true =>
    rw [if_pos rfl, evalText_patternMatch hf (undouble_like term), Truth.ofBool_eq_yes_iff,
      decide_bne_eq_true_iff]
    exact (and_iff_left (.inl rfl)).symm
  | false =>
    rw [if_neg (by simp), evalText_patternMatch_and hf (undouble_like term),
      evalText_patternMatch hf (undouble_like term), evalText_patternMatch hf (undouble_like term),
      Truth.and_eq_yes_iff, Truth.ofBool_eq_yes_iff, Truth.ofBool_eq_yes_iff,
      decide_bne_eq_true_iff, decide_bne_eq_true_iff]
    exact and_congr_right' (by simp [FoldedMatch])

/-- Equality and inequality of texts are matches of the field. -/
theorem comparison_eq_pattern {modifiers : List Modifier}
    (hm : Matching.ofModifiers modifiers = .ok m) (hformat : m.format = .string)
    (index : String) {base : String} (hbase : (base, negated) ∈ [("==", false), ("<>", true)]) :
    (comparison ⟨index, ⟨base, modifiers⟩, term⟩ f ix).result
      = (pattern term negated f m ix).result := by
  have hstrategy : strategy? (lowerCase base) m = some (.pattern negated) := by
    simp only [List.mem_cons, Prod.mk.injEq, List.not_mem_nil, or_false] at hbase
    rcases hbase with ⟨rfl, rfl⟩ | ⟨rfl, rfl⟩
    · have hlower : lowerCase "==" = "==" := by decide +kernel
      rw [hlower]
      simp [strategy?, hformat]
    · have hlower : lowerCase "<>" = "<>" := by decide +kernel
      rw [hlower]
      simp [strategy?, hformat]
  exact result_comparison (c := ⟨index, ⟨base, modifiers⟩, term⟩) hm hstrategy

/-! ## §3. The complement. -/

/-- For texts, equality and inequality are always translated.  For every value
of the field, and for any functions that fold: equality is true when the value
matches the term under the index, and under the modifiers unless these ignore
case and accents; inequality is true when it matches under neither; and so
inequality is the complement of equality just when the modifiers ignore case and
accents, or the two foldings agree on that value. -/
theorem inequality_complement_iff (hf : IsOperandText f.text) {modifiers : List Modifier}
    (hm : Matching.ofModifiers modifiers = .ok m) (hformat : m.format = .string)
    (index term : String) (ix : FieldIndexes) :
    ∃ equal unequal,
      (comparison ⟨index, ⟨"==", modifiers⟩, term⟩ f ix).result = .ok equal ∧
      (comparison ⟨index, ⟨"<>", modifiers⟩, term⟩ f ix).result = .ok unequal ∧
      ∀ (fns : TextFunctions) (value : List Char),
        (evalText (likePredicate fns (tokens f.text) value) equal = .yes ↔
          FoldedMatch fns (Folding.ofIndex ix.forPattern) term value ∧
            (m.ignoresCaseAndAccents = true ∨
              FoldedMatch fns (Folding.ofMatching m) term value)) ∧
        (evalText (likePredicate fns (tokens f.text) value) unequal = .yes ↔
          ¬ FoldedMatch fns (Folding.ofIndex ix.forPattern) term value ∧
            (m.ignoresCaseAndAccents = true ∨
              ¬ FoldedMatch fns (Folding.ofMatching m) term value)) ∧
        ((evalText (likePredicate fns (tokens f.text) value) unequal = .yes ↔
            evalText (likePredicate fns (tokens f.text) value) equal ≠ .yes) ↔
          m.ignoresCaseAndAccents = true ∨
            (FoldedMatch fns (Folding.ofIndex ix.forPattern) term value ↔
              FoldedMatch fns (Folding.ofMatching m) term value)) := by
  obtain ⟨equal, hequal⟩ : ∃ equal, (pattern term false f m ix).result = .ok equal :=
    ⟨_, result_pattern term false⟩
  obtain ⟨unequal, hunequal⟩ : ∃ unequal, (pattern term true f m ix).result = .ok unequal :=
    ⟨_, result_pattern term true⟩
  refine ⟨equal, unequal, (comparison_eq_pattern hm hformat index (by decide)).trans hequal,
    (comparison_eq_pattern hm hformat index (by decide)).trans hunequal, fun fns value => ?_⟩
  have heq := evalText_pattern hf hequal fns value
  have hne := evalText_pattern hf hunequal fns value
  simp only [iff_true] at heq
  simp only [Bool.true_eq_false, iff_false] at hne
  refine ⟨heq, hne, ?_⟩
  rw [ne_eq, heq, hne]
  -- what is left is propositional: neither of two matches, or not both of them
  cases m.ignoresCaseAndAccents with
  | true => simp
  | false =>
    by_cases hindex : FoldedMatch fns (Folding.ofIndex ix.forPattern) term value
    · simp [hindex]
    · simp [hindex]

/-- Folds the letters from `A` to `Z`, and no accents. -/
def asciiFunctions : TextFunctions where
  lower := List.map asciiLower
  unaccent := id

/-- The modifiers that respect letter case. -/
def exactCase : List Modifier := [⟨"respectCase", none, none⟩]

theorem ofModifiers_exactCase :
    Matching.ofModifiers exactCase = .ok { Matching.initial with letterCase := .respect } := by
  rfl

/-- One table, whose field `name` has an index on an expression. -/
def nameScope : Scope :=
  { table := "t"
    columns := ["t.jsonb"]
    schema :=
      { tables :=
          [{ tableName := "t"
             ginIndex := [{ fieldName := "name", sqlExpression := some "a->>'x' OR 'b' LIKE c" }] }] }
    serverChoice := []
    mode := .strict }

/-- The field of that index. -/
def nameField : CqlToSql.Field := ⟨"(a->>'x' OR 'b' LIKE c)", "t.jsonb->'name'"⟩

/-- An operator in the expression of an index stands in parentheses.  The two
foldings agree on `Zebra` and on `ox`, so the one is equal and not unequal to the
truncated term, and the other is unequal. -/
theorem inequality_complement_expression :
    nameScope.field "name" = .ok nameField ∧ ∃ equal unequal,
      (comparison ⟨"name", ⟨"==", exactCase⟩, "Z*"⟩ nameField
        (nameScope.indexes "name")).result = .ok equal ∧
      (comparison ⟨"name", ⟨"<>", exactCase⟩, "Z*"⟩ nameField
        (nameScope.indexes "name")).result = .ok unequal ∧
      evalText (likePredicate asciiFunctions (tokens nameField.text) "Zebra".toList) equal = .yes ∧
      evalText (likePredicate asciiFunctions (tokens nameField.text) "Zebra".toList) unequal ≠ .yes ∧
      evalText (likePredicate asciiFunctions (tokens nameField.text) "ox".toList) unequal = .yes := by
  have hfield : nameScope.field "name" = .ok nameField := by rfl
  have hoperand : IsOperandText nameField.text :=
    Scope.isOperandText_field (by decide +kernel) (by decide +kernel) hfield
  obtain ⟨equal, unequal, hequal, hunequal, htruth⟩ :=
    inequality_complement_iff hoperand ofModifiers_exactCase rfl "name" "Z*"
      (nameScope.indexes "name")
  refine ⟨hfield, equal, unequal, hequal, hunequal, ?_, ?_, ?_⟩
  · exact (htruth asciiFunctions "Zebra".toList).1.2 (by decide +kernel)
  · rw [ne_eq, (htruth asciiFunctions "Zebra".toList).2.1]
    decide +kernel
  · exact (htruth asciiFunctions "ox".toList).2.1.2 (by decide +kernel)

/-- Where letter case is respected, the value `z` is neither equal nor unequal to
the term `Z`: it matches in lower case, and does not match as it is. -/
theorem inequality_misses_other_case :
    ∃ equal unequal,
      (comparison ⟨"f", ⟨"==", exactCase⟩, "Z"⟩ (CqlToSql.Field.at "t.jsonb" "f") {}).result
        = .ok equal ∧
      (comparison ⟨"f", ⟨"<>", exactCase⟩, "Z"⟩ (CqlToSql.Field.at "t.jsonb" "f") {}).result
        = .ok unequal ∧
      unequal = "lower(f_unaccent(t.jsonb->>'f')) NOT LIKE lower(f_unaccent('Z')) AND "
        ++ "f_unaccent(t.jsonb->>'f') NOT LIKE f_unaccent('Z')" ∧
      evalText (likePredicate asciiFunctions (tokens "t.jsonb->>'f'") ['z']) equal ≠ .yes ∧
      evalText (likePredicate asciiFunctions (tokens "t.jsonb->>'f'") ['z']) unequal ≠ .yes := by
  refine ⟨"lower(f_unaccent(t.jsonb->>'f')) LIKE lower(f_unaccent('Z')) AND "
    ++ "f_unaccent(t.jsonb->>'f') LIKE f_unaccent('Z')", _,
    Logged.result_eq_ok_iff.2 (by decide +kernel), Logged.result_eq_ok_iff.2 ?_, rfl, ?_, ?_⟩
  · decide +kernel
  · decide +kernel
  · decide +kernel

end Condition

end CqlToSql
