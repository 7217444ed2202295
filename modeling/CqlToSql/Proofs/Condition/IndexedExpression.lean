/-
  CqlToSql.Proofs.Condition.IndexedExpression
  ───────────────────────────────────────────
  **The expression that an index is made on and the one that is searched.**  A
  database uses an index for a comparison if the left side of the comparison is
  the text that the index was made on:

      lower(f_unaccent(own)) LIKE …                 a pattern
      to_tsvector('simple', f_unaccent(own)) @@ …   words

  The folding around `own` comes from the index that serves the search: `gin`
  before `like`, `unique` and `plain` for a pattern, the full text index for
  words.  The expression inside comes from the first index of the field that has
  one, words first and plain last.  These are two searches, and they can end at
  two indexes.

  Main statement: the left side is that of the index that serves the search just
  when the first index with an expression, if there is one, is made on the same
  expression.  For a full text index with an expression this always holds.
-/
import CqlToSql.Proofs.Condition.Outcome

namespace CqlToSql

open CqlToSql.Text

variable {scope : Scope} {index : String} {i : Index}

/-! ## §1. The expression of an index. -/

/-- What an index on the field `path` is made on, before it is folded: its own
expression, or else the field. -/
def Index.ownExpression (i : Index) (column path : String) : String :=
  (i.expression column).getD (textPath column path)

theorem Index.isSome_expression (i : Index) (column : String) :
    (i.expression column).isSome = i.hasExpression := by
  unfold Index.expression Index.hasExpression
  cases i.sqlExpression <;> cases i.multiFieldNames <;> rfl

/-- What an index on the field `index` of a scope is made on. -/
def Scope.ownExpression (scope : Scope) (index : String) (i : Index) : String :=
  i.ownExpression (scope.resolve index).1 (scope.resolve index).2

/-- An index without an expression is made on the field. -/
theorem Scope.ownExpression_eq_textPath (h : i.hasExpression = false) :
    scope.ownExpression index i = textPath (scope.resolve index).1 (scope.resolve index).2 := by
  have hnone : i.expression (scope.resolve index).1 = none := by
    rw [← Option.not_isSome_iff_eq_none, Index.isSome_expression, h]
    decide
  rw [Scope.ownExpression, Index.ownExpression, hnone, Option.getD_none]

/-- The text of a field is the expression of its first index with an expression,
and the path of the field if there is no such index. -/
theorem Scope.text_of_field {f : Field} (hf : scope.field index = .ok f) :
    f.text = ((scope.indexes index).withExpression.map (scope.ownExpression index)).getD
      (textPath (scope.resolve index).1 (scope.resolve index).2) := by
  unfold Scope.field at hf
  split at hf
  · cases hf
  · cases hf
    show ((Field.at (scope.resolve index).1 (scope.resolve index).2).withExpression
      (scope.resolve index).1 (scope.indexes index).withExpression).text = _
    unfold Field.withExpression
    cases hfirst : (scope.indexes index).withExpression with
    | none => rfl
    | some e =>
      have hsome : (e.expression (scope.resolve index).1).isSome := by
        rw [Index.isSome_expression]
        exact List.find?_some hfirst
      obtain ⟨text, htext⟩ := Option.isSome_iff_exists.1 hsome
      simp [htext, Scope.ownExpression, Index.ownExpression]

/-- The first index of the field with an expression, if there is one, is made on
what `i` is made on. -/
def Scope.SharesExpression (scope : Scope) (index : String) (i : Index) : Prop :=
  ∀ e ∈ (scope.indexes index).withExpression,
    scope.ownExpression index e = scope.ownExpression index i

theorem Scope.text_eq_ownExpression_iff {f : Field} (hf : scope.field index = .ok f)
    (hi : i ∈ (scope.indexes index).all) :
    f.text = scope.ownExpression index i ↔ scope.SharesExpression index i := by
  rw [Scope.text_of_field hf, Scope.SharesExpression]
  cases hfirst : (scope.indexes index).withExpression with
  | none =>
    have hplain : i.hasExpression = false := by
      simpa using List.find?_eq_none.1 hfirst i hi
    simp [Scope.ownExpression_eq_textPath hplain]
  | some e => simp

namespace FieldIndexes

variable {ix : FieldIndexes}

/-- Words come first among the indexes of a field. -/
theorem all_of_fullText (h : ix.fullText = some i) :
    ix.all = i :: [ix.gin, ix.like, ix.unique, ix.plain].filterMap id := by
  rw [all, h]
  rfl

theorem mem_all_of_forPattern (h : ix.forPattern = some i) : i ∈ ix.all := by
  unfold forPattern at h
  cases hgin : ix.gin <;> cases hlike : ix.like <;> cases hunique : ix.unique <;>
    cases hplain : ix.plain <;> simp_all [all]

end FieldIndexes

/-- A full text index with an expression is the first index that has one. -/
theorem Scope.sharesExpression_of_fullText (h : (scope.indexes index).fullText = some i)
    (hi : i.hasExpression = true) : scope.SharesExpression index i := by
  have hfirst : (scope.indexes index).withExpression = some i := by
    rw [FieldIndexes.withExpression, FieldIndexes.all_of_fullText h]
    exact List.find?_cons_of_pos hi
  simp [Scope.SharesExpression, hfirst]

namespace Condition

variable {c : Clause} {f : CqlToSql.Field} {ix : FieldIndexes} {m : Matching} {sql : String}

/-! ## §2. The two sides of a comparison. -/

theorem Folding.apply_inj {folding : Folding} {a b : String} :
    folding.apply a = folding.apply b ↔ a = b := by
  obtain ⟨lower, unaccent⟩ := folding
  cases lower <;> cases unaccent <;>
    simp [Folding.apply, lowered, unaccented, String.append_assoc]

/-- The folding of a full text index, which takes no account of letter case. -/
def Folding.ofWords (i : Index) : Folding := { lower := false, unaccent := i.removesAccents }

/-- One search of a text for words. -/
def wordsMatch (folding : Folding) (text query : String) : String :=
  "to_tsvector('simple', " ++ folding.apply text ++ ") @@ to_tsquery('simple', "
    ++ folding.apply query ++ ")"

/-- A pattern is compared in the folding of the index that serves it. -/
theorem pattern_served {negated : Bool} {i : Index} (hi : ix.forPattern = some i)
    (h : (pattern c.term negated f m ix).result = .ok sql) :
    ∃ rest, sql = patternMatch negated (Folding.ofIndex (some i)) f.text
      (literal (Term.like c.term)) ++ rest := by
  rw [result_pattern, hi] at h
  cases h
  split
  · exact ⟨"", by simp⟩
  · exact ⟨_, String.append_assoc ..⟩

/-- Words are compared in the folding of the full text index. -/
theorem words_served {operator : String} {i : Index} (hi : ix.fullText = some i)
    (h : (words c.term operator f m ix).result = .ok sql) :
    (trim (dropStrayStars c.term) = "*" ∧ sql = "true") ∨
    (trim (dropStrayStars c.term) = "" ∧ sql = f.text ++ " ~ ''") ∨
    ∃ body, sql = wordsMatch (Folding.ofWords i) f.text (literal body) := by
  rcases words_outcome h with hstar | hempty | ⟨-, -, operands, -, hsql⟩
  · exact .inl hstar
  · exact .inr (.inl hempty)
  · have hfolding : wordsFolding ix = Folding.ofWords i := by
      rw [wordsFolding, hi]
      rfl
    refine .inr (.inr ⟨joinWith operator operands, ?_⟩)
    rw [hsql, ← hfolding]
    rfl

/-! ## §3. Clauses. -/

/-- The text that a clause on the field `index` compares with its term, and what
becomes of the comparison. -/
inductive Compares (scope : Scope) (index : String) (modifiers : List Modifier) :
    String → (String → String) → Prop where
  /-- The field itself is compared. -/
  | itself {f : CqlToSql.Field} (hf : scope.field index = .ok f)
      (hmod : elementModifier? modifiers = none) : Compares scope index modifiers f.text id
  /-- A part of the elements of an array is compared. -/
  | element {name declared part before column : String} {modifier : Modifier}
      (hmod : elementModifier? modifiers = some (name, modifier))
      (hdecl : (scope.indexes index).elementModifier name = some (declared, part))
      (hcut : cutLast '.' scope.column = some (before, column)) :
      Compares scope index modifiers (textPath "t.c" part)
        (elementSearch (jsonPath column index) scope.table declared (modifier.value.getD ""))

/-- Without a modifier of elements the field itself is compared. -/
theorem Compares.exists_field {modifiers : List Modifier} {text : String} {wrap : String → String}
    (h : Compares scope index modifiers text wrap) (hnone : elementModifier? modifiers = none) :
    ∃ f, scope.field index = .ok f ∧ text = f.text := by
  cases h with
  | itself hf hmod => exact ⟨_, hf, rfl⟩
  | element hmod hdecl hcut => simp [hnone] at hmod

theorem exists_compares (hkey : index ≠ keyColumn) (h : (field scope index c).result = .ok sql) :
    ∃ f wrap condition, Compares scope index c.relation.modifiers (Field.text f) wrap ∧
      (comparison c f (scope.indexes index)).result = .ok condition ∧ sql = wrap condition := by
  obtain ⟨f, hf, h⟩ := field_outcome h
  rcases h with ⟨name, modifier, declared, part, hmod, hdecl, h⟩ | ⟨-, hid, -⟩ | ⟨hmod, -, h⟩
  · obtain ⟨before, column, condition, hcut, hcondition, hsql⟩ := element_outcome h
    exact ⟨CqlToSql.Field.at "t.c" part, _, condition, .element hmod hdecl hcut, hcondition, hsql⟩
  · exact absurd hid hkey
  · exact ⟨f, id, sql, .itself hf hmod, h, rfl⟩

/-- **The left side of a search that an index serves.**  It is folded as that
index is.  In a comparison of the field itself it is made on what the index is
made on just when the first index with an expression is. -/
theorem served_leftSide_iff (hkey : index ≠ keyColumn)
    (h : (field scope index c).result = .ok sql) :
    ∃ m text wrap, Matching.ofModifiers c.relation.modifiers = .ok m ∧
      Compares scope index c.relation.modifiers text wrap ∧
      (∀ negated i, strategy? (lowerCase c.relation.base) m = some (.pattern negated) →
        (scope.indexes index).forPattern = some i →
        ∃ rest, sql = wrap (patternMatch negated (Folding.ofIndex (some i)) text
          (literal (Term.like c.term)) ++ rest)) ∧
      (∀ operator i, strategy? (lowerCase c.relation.base) m = some (.words operator) →
        (scope.indexes index).fullText = some i →
        (trim (dropStrayStars c.term) = "*" ∧ sql = wrap "true") ∨
        (trim (dropStrayStars c.term) = "" ∧ sql = wrap (text ++ " ~ ''")) ∨
        ∃ body, sql = wrap (wordsMatch (Folding.ofWords i) text (literal body))) ∧
      (elementModifier? c.relation.modifiers = none →
        (∀ i, (scope.indexes index).forPattern = some i →
          ((Folding.ofIndex (some i)).apply text
              = (Folding.ofIndex (some i)).apply (scope.ownExpression index i) ↔
            scope.SharesExpression index i)) ∧
        (∀ i, (scope.indexes index).fullText = some i →
          ((Folding.ofWords i).apply text
              = (Folding.ofWords i).apply (scope.ownExpression index i) ↔
            scope.SharesExpression index i) ∧
          (i.hasExpression = true → scope.SharesExpression index i))) := by
  obtain ⟨f, wrap, condition, hcompares, hcondition, rfl⟩ := exists_compares hkey h
  obtain ⟨m, strategy, hm, hs, hcondition⟩ := comparison_outcome hcondition
  refine ⟨m, f.text, wrap, hm, hcompares, ?_, ?_, ?_⟩
  · intro negated i hpattern hi
    obtain rfl : strategy = .pattern negated := Option.some.inj (hs.symm.trans hpattern)
    obtain ⟨rest, hrest⟩ := pattern_served hi hcondition
    exact ⟨rest, congrArg wrap hrest⟩
  · intro operator i hwords hi
    obtain rfl : strategy = .words operator := Option.some.inj (hs.symm.trans hwords)
    rcases words_served hi hcondition with ⟨hstar, rfl⟩ | ⟨hempty, rfl⟩ | ⟨body, rfl⟩
    · exact .inl ⟨hstar, rfl⟩
    · exact .inr (.inl ⟨hempty, rfl⟩)
    · exact .inr (.inr ⟨body, rfl⟩)
  · intro hnone
    obtain ⟨g, hg, htext⟩ := hcompares.exists_field hnone
    rw [htext]
    refine ⟨?_, ?_⟩
    · intro i hi
      rw [Folding.apply_inj]
      exact Scope.text_eq_ownExpression_iff hg (FieldIndexes.mem_all_of_forPattern hi)
    · intro i hi
      have hmem : i ∈ (scope.indexes index).all := by simp [FieldIndexes.all_of_fullText hi]
      refine ⟨Folding.apply_inj.trans (Scope.text_eq_ownExpression_iff hg hmem), ?_⟩
      intro hexpr
      exact Scope.sharesExpression_of_fullText hi hexpr

/-- A field with a full text index on an expression and a `gin` index on the
field. -/
def twoIndexScope : Scope :=
  { table := "t", columns := ["t.jsonb"],
    schema := { tables := [
      { tableName := "t",
        fullTextIndex :=
          [{ fieldName := "name", sqlExpression := some "concat_space_sql(jsonb->>'last')" }],
        ginIndex := [{ fieldName := "name", caseSensitive := true }] }] },
    serverChoice := [], mode := .strict }

/-- A search for words looks at what the full text index is made on. -/
theorem served_leftSide_words :
    ∃ sql i body, (field twoIndexScope "name" ⟨"name", ⟨"=", []⟩, "x y"⟩).result = .ok sql ∧
      (twoIndexScope.indexes "name").fullText = some i ∧
      sql = wordsMatch (Folding.ofWords i) (twoIndexScope.ownExpression "name" i) (literal body) := by
  have hsql : (field twoIndexScope "name" ⟨"name", ⟨"=", []⟩, "x y"⟩).result = .ok
      ("to_tsvector('simple', f_unaccent((concat_space_sql(jsonb->>'last')))) @@ "
        ++ "to_tsquery('simple', f_unaccent('x<->y'))") :=
    Logged.result_eq_ok_iff.2 (by decide +kernel)
  have hi : (twoIndexScope.indexes "name").fullText = some
      { fieldName := "name", sqlExpression := some "concat_space_sql(jsonb->>'last')" } := by
    decide +kernel
  obtain ⟨m, text, wrap, hm, hcompares, -, hwords, hown⟩ :=
    served_leftSide_iff (by decide) hsql
  cases hm
  cases hcompares with
  | element hmod hdecl hcut => cases hmod
  | itself hf hmod =>
    obtain ⟨hleft, hshared⟩ := (hown rfl).2 _ hi
    have htext := Folding.apply_inj.1 (hleft.2 (hshared rfl))
    rcases hwords "<->" _ (by decide +kernel) hi with ⟨hstar, -⟩ | ⟨hempty, -⟩ | ⟨body, hbody⟩
    · exact absurd hstar (by decide +kernel)
    · exact absurd hempty (by decide +kernel)
    · rw [htext] at hbody
      exact ⟨_, _, body, hsql, hi, hbody⟩

/-- A search for a pattern is folded like the `gin` index and looks at what the
full text index is made on. -/
theorem served_leftSide_other_expression :
    ∃ i, (twoIndexScope.indexes "name").forPattern = some i ∧
      (Folding.ofIndex (some i)).apply (twoIndexScope.ownExpression "name" i)
        = "f_unaccent(t.jsonb->>'name')" ∧
      (field twoIndexScope "name" ⟨"name", ⟨"==", []⟩, "x"⟩).result = .ok
        ("f_unaccent((concat_space_sql(jsonb->>'last'))) LIKE "
          ++ "f_unaccent('x')") := by
  refine ⟨{ fieldName := "name", caseSensitive := true }, by decide +kernel, by decide +kernel, ?_⟩
  exact Logged.result_eq_ok_iff.2 (by decide +kernel)

end Condition

end CqlToSql
