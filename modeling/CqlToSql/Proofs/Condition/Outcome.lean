/-
  CqlToSql.Proofs.Condition.Outcome
  ─────────────────────────────────
  **What a successful translation has done**, for each step of it: which rule
  applied, what the steps below it returned, and the text made from that.
  Later modules read these facts off and do not open the steps again.
-/
import CqlToSql.Proofs.Logged
import CqlToSql.Translator

namespace CqlToSql.Condition

open CqlToSql.Text

variable {scope : Scope} {c : Clause} {f : CqlToSql.Field} {ix : FieldIndexes} {m : Matching}
  {term operator sql : String}

/-! ## §1. Comparisons. -/

/-- The folding of a full text search. -/
def wordsFolding (ix : FieldIndexes) : Folding :=
  { lower := false, unaccent := (ix.fullText.map Index.removesAccents).getD true }

/-- The full text search for a body of operands. -/
def wordsText (f : CqlToSql.Field) (ix : FieldIndexes) (body : String) : String :=
  "to_tsvector('simple', " ++ (wordsFolding ix).apply f.text ++ ") @@ to_tsquery('simple', "
    ++ (wordsFolding ix).apply (literal body) ++ ")"

theorem words_outcome (h : (words term operator f m ix).result = .ok sql) :
    (trim (dropStrayStars term) = "*" ∧ sql = "true") ∨
    (trim (dropStrayStars term) = "" ∧ sql = f.text ++ " ~ ''") ∨
    (trim (dropStrayStars term) ≠ "*" ∧ trim (dropStrayStars term) ≠ "" ∧
      ∃ operands, lexemes (Text.words (trim (dropStrayStars term))) = .ok operands ∧
        sql = wordsText f ix (joinWith operator operands)) := by
  unfold words at h
  simp only [Logged.result_warnIf_bind] at h
  split at h
  · rename_i hstar
    cases h
    exact .inl ⟨hstar, rfl⟩
  · rename_i hstar
    split at h
    · rename_i hempty
      cases h
      exact .inr (.inl ⟨hempty, rfl⟩)
    · rename_i hempty
      obtain ⟨operands, ho, hsql⟩ := Logged.result_bind_eq_ok_iff.1 h
      rw [Logged.result_ofExcept] at ho
      cases hsql
      exact .inr (.inr ⟨hstar, hempty, operands, ho, rfl⟩)

/-- A pattern match always succeeds. -/
theorem result_pattern (term : String) (negated : Bool) :
    (pattern term negated f m ix).result = .ok
      (if m.ignoresCaseAndAccents then
        patternMatch negated (Folding.ofIndex ix.forPattern) f.text (literal (Term.like term))
      else
        patternMatch negated (Folding.ofIndex ix.forPattern) f.text (literal (Term.like term))
          ++ " AND "
          ++ patternMatch negated (Folding.ofMatching m) f.text (literal (Term.like term))) := by
  unfold pattern
  rw [Logged.result_warnIf_bind]
  cases m.ignoresCaseAndAccents <;> rfl

/-- A typed comparison always succeeds. -/
theorem result_typed (term operator : String) :
    (typed term operator f m ix).result = .ok
      (match m.format with
        | .number =>
          "(" ++ f.text ++ ")::numeric " ++ operator
            ++ (if isNumeric term then term else literal (Term.like term))
        | .string => f.text ++ " " ++ operator ++ literal (Term.like term)) := by
  unfold typed
  rw [Logged.result_warnIf_bind]
  cases m.format with
  | number =>
    dsimp only
    split <;> rfl
  | string => rfl

theorem comparison_outcome (h : (comparison c f ix).result = .ok sql) :
    ∃ m strategy, Matching.ofModifiers c.relation.modifiers = .ok m ∧
      strategy? (lowerCase c.relation.base) m = some strategy ∧
      (strategy.condition c.term f m ix).result = .ok sql := by
  unfold comparison at h
  obtain ⟨m, hm, h⟩ := Logged.result_bind_eq_ok_iff.1 h
  dsimp only at h
  split at h
  · cases h
  · rename_i strategy hs
    obtain ⟨text, ht, h⟩ := Logged.result_bind_eq_ok_iff.1 h
    rw [Logged.result_write_bind] at h
    cases h
    exact ⟨m, strategy, hm, hs, ht⟩

/-- A comparison gives what its strategy gives. -/
theorem result_comparison {strategy : Strategy}
    (hm : Matching.ofModifiers c.relation.modifiers = .ok m)
    (hs : strategy? (lowerCase c.relation.base) m = some strategy) :
    (comparison c f ix).result = (strategy.condition c.term f m ix).result := by
  unfold comparison
  rw [hm, Logged.result_bind_ok (Logged.result_ofExcept (.ok m))]
  dsimp only
  rw [hs, Logged.result_bind]
  cases (strategy.condition c.term f m ix).result <;> rfl

/-- All strategies that a relation can choose. -/
def strategies : List Strategy :=
  [.words "<->", .words " & ", .words " | ", .pattern false, .pattern true, .typed "=",
   .typed "<>", .typed "<", .typed ">", .typed "<=", .typed ">="]

theorem strategy?_mem {relation : String} {strategy : Strategy}
    (h : strategy? relation m = some strategy) : strategy ∈ strategies := by
  unfold strategy? at h
  by_cases hcomparison : relation ∈ ["<", ">", "<=", ">="]
  -- the four symbols are operators of typed comparisons as they are
  · simp only [List.mem_cons, List.not_mem_nil, or_false] at hcomparison
    rcases hcomparison with rfl | rfl | rfl | rfl <;>
    · simp at h
      subst h
      decide
  · rw [if_neg hcomparison] at h
    grind [strategies]

/-- The operators of typed comparisons. -/
def typedOperators : List String := ["=", "<>", "<", ">", "<=", ">="]

theorem mem_typedOperators {operator : String} (h : .typed operator ∈ strategies) :
    operator ∈ typedOperators := by
  simpa [strategies, typedOperators] using h

/-! ## §2. Primary keys. -/

/-- The texts of clauses on the primary key. -/
inductive IsKeyText (term : String) : String → Prop where
  | constant (equal : Bool) : IsKeyText term (constantKey equal)
  | invalid (equal : Bool) : IsKeyText term (invalidKey equal)
  /-- A comparison with a UUID. -/
  | compared {op : String} (hop : op ∈ [">", "<", ">=", "<=", "=", "<>"])
      (huuid : isUuid term = true) : IsKeyText term (keyColumn ++ op ++ literal term)
  /-- A range between two UUIDs. -/
  | range (equal : Bool) {lowest highest : String} (hl : isUuid lowest = true)
      (hh : isUuid highest = true) : IsKeyText term (keyRange equal lowest highest)

theorem append_quoted (start body : String) : start ++ "'" ++ body ++ "'" = start ++ literal body := by
  simp [literal, String.append_assoc]

/-- The two bounds of a range are literals. -/
theorem keyRange_eq (equal : Bool) (lowest highest : String) :
    keyRange equal lowest highest =
      "(" ++ keyColumn ++ (if equal then ">=" else "<") ++ literal lowest
        ++ ((if equal then " and " else " or ") ++ keyColumn ++ if equal then "<=" else ">")
        ++ literal highest ++ ")" := by
  cases equal <;> simp [keyRange, literal, ← String.toList_inj]

theorem keyEquality_outcome {equal : Bool} (h : keyEquality equal term = .ok sql) :
    IsKeyText term sql := by
  unfold keyEquality at h
  split at h
  · cases h
    exact .constant equal
  · split at h
    · split at h
      · rename_i huuid
        cases h
        rw [append_quoted]
        refine .compared ?_ huuid
        cases equal <;> decide
      · cases h
        exact .invalid equal
    · -- a term with a star at its end asks for a range
      dsimp only at h
      split at h
      · cases h
      · split at h
        · rename_i huuid
          rw [Bool.and_eq_true] at huuid
          cases h
          exact .range equal huuid.1 huuid.2
        · cases h
          exact .invalid equal

theorem primaryKey_outcome {relation : Relation} (h : primaryKey relation term = .ok sql) :
    IsKeyText term sql := by
  unfold primaryKey at h
  split at h
  · cases h
  · split at h
    · rename_i hop
      split at h
      · rename_i huuid
        cases h
        rw [append_quoted]
        exact .compared (List.mem_append_left ["=", "<>"] hop) huuid
      · cases h
    · split at h
      · exact keyEquality_outcome h
      · split at h
        · exact keyEquality_outcome h
        · cases h

/-! ## §3. Fields. -/

/-- What stands behind the `@` of a modifier that addresses elements. -/
def elementName? (name : String) : Option String :=
  match name.toList with
  | '@' :: rest => some (String.ofList rest)
  | _ => none

theorem eq_at_of_elementName? {name rest : String} (h : elementName? name = some rest) :
    name = "@" ++ rest := by
  unfold elementName? at h
  split at h
  · rename_i cs hname
    cases h
    rw [← String.toList_inj, hname]
    simp
  · cases h

/-- The modifiers that address the elements of an array, each with its name less
the `@`. -/
def elementModifiers (modifiers : List Modifier) : List (String × Modifier) :=
  modifiers.filterMap fun m => (elementName? m.name).map (·, m)

theorem elementModifier?_eq_head? (modifiers : List Modifier) :
    elementModifier? modifiers = (elementModifiers modifiers).head? := by
  induction modifiers with
  | nil => rfl
  | cons m ms ih =>
    unfold elementModifier?
    split
    · rename_i rest hname
      have hrest : elementName? m.name = some (String.ofList rest) := by
        simp [elementName?, hname]
      simp [elementModifiers, hrest]
    · rename_i hname
      have hnone : elementName? m.name = none := by
        unfold elementName?
        split
        · rename_i rest hrest
          exact absurd hrest (hname rest)
        · rfl
      rw [ih]
      simp [elementModifiers, hnone]

/-- A clause on array elements fails for every member or for none. -/
theorem result_element (scope : Scope) (index : String) (c : Clause) (part : String) :
    (∃ fault, ∀ name value, (element scope index c name part value).result = .error fault) ∨
    ∃ before column condition, cutLast '.' scope.column = some (before, column) ∧
      (comparison c (CqlToSql.Field.at "t.c" part) (scope.indexes index)).result = .ok condition ∧
      ∀ name value, (element scope index c name part value).result
        = .ok (elementSearch (jsonPath column index) scope.table name value condition) := by
  unfold element
  cases hcut : cutLast '.' scope.column with
  | none => exact .inl ⟨_, fun _ _ => rfl⟩
  | some cut =>
    obtain ⟨before, column⟩ := cut
    cases hcondition : (comparison c (CqlToSql.Field.at "t.c" part) (scope.indexes index)).result with
    | error fault =>
      refine .inl ⟨fault, fun name value => ?_⟩
      dsimp only
      rw [Logged.result_bind, hcondition]
      rfl
    | ok condition =>
      refine .inr ⟨before, column, condition, rfl, rfl, fun name value => ?_⟩
      dsimp only
      rw [Logged.result_bind_ok hcondition]
      rfl

theorem element_outcome {index name part value : String}
    (h : (element scope index c name part value).result = .ok sql) :
    ∃ before column condition, cutLast '.' scope.column = some (before, column) ∧
      (comparison c (CqlToSql.Field.at "t.c" part) (scope.indexes index)).result = .ok condition ∧
      sql = elementSearch (jsonPath column index) scope.table name value condition := by
  rcases result_element scope index c part with ⟨fault, hfault⟩ |
    ⟨before, column, condition, hcut, hcondition, hok⟩
  · rw [hfault] at h
    cases h
  · rw [hok] at h
    cases h
    exact ⟨before, column, condition, hcut, hcondition, rfl⟩

theorem field_outcome {index : String} (h : (field scope index c).result = .ok sql) :
    ∃ expressions, scope.field index = .ok expressions ∧
      ((∃ name modifier declared part,
          elementModifier? c.relation.modifiers = some (name, modifier) ∧
          (scope.indexes index).elementModifier name = some (declared, part) ∧
          (element scope index c declared part (modifier.value.getD "")).result = .ok sql) ∨
        (elementModifier? c.relation.modifiers = none ∧ index = keyColumn ∧
          primaryKey c.relation c.term = .ok sql) ∨
        (elementModifier? c.relation.modifiers = none ∧ index ≠ keyColumn ∧
          (comparison c expressions (scope.indexes index)).result = .ok sql)) := by
  unfold field at h
  obtain ⟨expressions, he, h⟩ := Logged.result_bind_eq_ok_iff.1 h
  refine ⟨expressions, he, ?_⟩
  split at h
  · rename_i name modifier hmod
    split at h
    · rename_i declared part hdecl
      exact .inl ⟨name, modifier, declared, part, hmod, hdecl, h⟩
    · cases h
  · rename_i hmod
    split at h
    · rename_i hkey
      exact .inr (.inl ⟨hmod, hkey, h⟩)
    · rename_i hkey
      exact .inr (.inr ⟨hmod, hkey, h⟩)

/-- Without a modifier of elements the field itself is compared, or the key. -/
theorem result_field_of_plain {index : String} (hf : scope.field index = .ok f)
    (hmod : elementModifier? c.relation.modifiers = none) :
    (field scope index c).result =
      if index = keyColumn then primaryKey c.relation c.term
      else (comparison c f (scope.indexes index)).result := by
  unfold field
  rw [hf, Logged.result_bind_ok (Logged.result_ofExcept _), hmod]
  dsimp only
  split
  · exact Logged.result_ofExcept _
  · rfl

/-- A search in the elements of an array. -/
theorem field_eq_ok_iff_of_element {index name : String} {modifier : Modifier}
    (hf : scope.field index = .ok f)
    (hmod : elementModifier? c.relation.modifiers = some (name, modifier)) :
    (field scope index c).result = .ok sql ↔
      ∃ declared part before column condition,
        (scope.indexes index).elementModifier name = some (declared, part) ∧
        cutLast '.' scope.column = some (before, column) ∧
        (comparison c (CqlToSql.Field.at "t.c" part) (scope.indexes index)).result
          = .ok condition ∧
        sql = elementSearch (jsonPath column index) scope.table declared
          (modifier.value.getD "") condition := by
  constructor
  · intro h
    obtain ⟨expressions, -, h⟩ := field_outcome h
    rcases h with ⟨name', modifier', declared, part, hmod', hdecl, h⟩ | ⟨hmod', -, -⟩ | ⟨hmod', -, -⟩
    · rw [hmod] at hmod'
      cases hmod'
      obtain ⟨before, column, condition, hcut, hcondition, hsql⟩ := element_outcome h
      exact ⟨declared, part, before, column, condition, hdecl, hcut, hcondition, hsql⟩
    · simp [hmod] at hmod'
    · simp [hmod] at hmod'
  · rintro ⟨declared, part, before, column, condition, hdecl, hcut, hcondition, rfl⟩
    unfold field
    rw [hf, Logged.result_bind_ok (Logged.result_ofExcept _), hmod]
    dsimp only
    rw [hdecl]
    show (element scope index c declared part (modifier.value.getD "")).result = _
    unfold element
    rw [hcut]
    exact Logged.result_bind_eq_ok_iff.2 ⟨condition, hcondition, rfl⟩

theorem fields_cons_outcome {index : String} {rest conditions : List String}
    (h : (fields scope c (index :: rest)).result = .ok conditions) :
    ∃ first others, (field scope index c).result = .ok first ∧
      (fields scope c rest).result = .ok others ∧ conditions = first :: others := by
  unfold fields at h
  obtain ⟨first, hfirst, h⟩ := Logged.result_bind_eq_ok_iff.1 h
  obtain ⟨others, hothers, h⟩ := Logged.result_bind_eq_ok_iff.1 h
  cases h
  exact ⟨first, others, hfirst, hothers, rfl⟩

theorem anyField_outcome (h : (anyField scope c).result = .ok sql) :
    ∃ conditions, scope.serverChoice ≠ [] ∧
      (fields scope c scope.serverChoice).result = .ok conditions ∧
      sql = joinWith " OR " conditions := by
  unfold anyField at h
  split at h
  · cases h
  · rename_i hchoice
    obtain ⟨conditions, hc, h⟩ := Logged.result_bind_eq_ok_iff.1 h
    cases h
    exact ⟨conditions, by simpa using hchoice, hc, rfl⟩

/-! ## §4. Clauses. -/

/-- A clause on an index that is qualified with another table is a join. -/
theorem clause_of_qualified {qualifier rest : String}
    (hall : sameAsciiFold c.index allRecords = false)
    (hq : scope.qualifier? c.index = some (qualifier, rest)) :
    clause scope c = (do
      let path ← Logged.ofExcept (scope.joinPath qualifier)
      match path.finalTable? with
      | none => Logged.fail (.query (.noJoin scope.table qualifier))
      | some table =>
        Logged.write .debug ("Join from " ++ scope.table ++ " to " ++ table ++ " via "
          ++ toString path.hops.length ++ " foreign keys")
        let inner ← clause (scope.forTable table) { c with index := rest }
        pure (path.nest inner)) := by
  rw [clause, if_neg (by simp [hall])]
  split
  · rename_i hsome
    rw [hq] at hsome
    cases hsome
    rfl
  · rename_i hnone
    rw [hq] at hnone
    cases hnone

theorem clause_join_outcome {qualifier rest : String}
    (hall : sameAsciiFold c.index allRecords = false)
    (hq : scope.qualifier? c.index = some (qualifier, rest))
    (h : (clause scope c).result = .ok sql) :
    ∃ path table inner, scope.joinPath qualifier = .ok path ∧ path.finalTable? = some table ∧
      (clause (scope.forTable table) { c with index := rest }).result = .ok inner ∧
      sql = path.nest inner := by
  rw [clause_of_qualified hall hq] at h
  obtain ⟨path, hpath, h⟩ := Logged.result_bind_eq_ok_iff.1 h
  split at h
  · cases h
  · rename_i table htable
    rw [Logged.result_write_bind] at h
    obtain ⟨inner, hinner, h⟩ := Logged.result_bind_eq_ok_iff.1 h
    cases h
    exact ⟨path, table, inner, hpath, htable, hinner, rfl⟩

/-- What a clause that does not join looks at: its term, and then its index. -/
theorem clause_of_unqualified (hall : sameAsciiFold c.index allRecords = false)
    (hq : scope.qualifier? c.index = none) :
    clause scope c =
      match termQualifier? scope c.term with
      | some (qualifier, path) => Logged.ofExcept (scope.valueJoin qualifier path c)
      | none => if sameAsciiFold c.index serverChoice then anyField scope c
        else field scope c.index c := by
  rw [clause, if_neg (by simp [hall])]
  split
  · rename_i hsome
    rw [hq] at hsome
    cases hsome
  · rfl

theorem clause_outcome (h : (clause scope c).result = .ok sql) :
    sql = "true" ∨
    (∃ qualifier rest path table inner, scope.qualifier? c.index = some (qualifier, rest) ∧
      scope.joinPath qualifier = .ok path ∧ path.finalTable? = some table ∧
      (clause (scope.forTable table) { c with index := rest }).result = .ok inner ∧
      sql = path.nest inner) ∨
    (∃ qualifier path, termQualifier? scope c.term = some (qualifier, path) ∧
      scope.valueJoin qualifier path c = .ok sql) ∨
    (anyField scope c).result = .ok sql ∨
    (field scope c.index c).result = .ok sql := by
  by_cases hall : sameAsciiFold c.index allRecords = true
  · unfold clause at h
    rw [if_pos hall] at h
    cases h
    exact .inl rfl
  · have hall : sameAsciiFold c.index allRecords = false := by simpa using hall
    cases hq : scope.qualifier? c.index with
    | some cut =>
      obtain ⟨qualifier, rest⟩ := cut
      obtain ⟨path, table, inner, hp, ht, hi, hsql⟩ := clause_join_outcome hall hq h
      exact .inr (.inl ⟨qualifier, rest, path, table, inner, rfl, hp, ht, hi, hsql⟩)
    | none =>
      rw [clause_of_unqualified hall hq] at h
      split at h
      · rename_i qualifier path hterm
        exact .inr (.inr (.inl ⟨qualifier, path, hterm, h⟩))
      · split at h
        · exact .inr (.inr (.inr (.inl h)))
        · exact .inr (.inr (.inr (.inr h)))

/-- The comparison with the values of another table. -/
theorem valueJoin_outcome {qualifier path : String}
    (h : scope.valueJoin qualifier path c = .ok sql) :
    ∃ table expressions, Scope.isPlainPath path = true ∧
      scope.schema.tableForAlias qualifier = some table ∧
      scope.field c.index = .ok expressions ∧
      (sql = expressions.text ++ " IN  ( SELECT " ++ textPath (table ++ "." ++ documentColumn) path
          ++ " from " ++ table ++ ")" ∨
        sql = expressions.text ++ " NOT IN  ( SELECT "
          ++ textPath (table ++ "." ++ documentColumn) path ++ " from " ++ table ++ " WHERE "
          ++ textPath (table ++ "." ++ documentColumn) path ++ " IS NOT NULL)") := by
  unfold Scope.valueJoin at h
  split at h
  · cases h
  · rename_i hplain
    split at h
    · cases h
    · split at h
      · cases h
      · rename_i table ht
        split at h
        · cases h
        · rename_i expressions he
          refine ⟨table, expressions, by simpa using hplain, ht, he, ?_⟩
          dsimp only at h
          split at h
          · cases h
            exact .inl rfl
          · split at h
            · cases h
              exact .inr rfl
            · cases h

/-! ## §5. Trees. -/

/-- A sort key is written as the primary key, or as one of the expressions of
its field, with the direction behind it. -/
theorem sortKey_outcome {key : SortKey} (h : sortKey scope key = .ok sql) :
    ∃ direction ∈ ["", " DESC"], sql = keyColumn ++ direction ∨
      ∃ f, scope.field key.index = .ok f ∧
        (sql = f.json ++ direction ∨ sql = lowered (unaccented f.text) ++ direction) := by
  unfold sortKey at h
  split at h
  · cases h
  · rename_i matching hm
    dsimp only at h
    split at h
    · cases h
      refine ⟨_, ?_, .inl rfl⟩
      split <;> decide
    · split at h
      · cases h
      · rename_i f hf
        split at h
        · cases h
          refine ⟨_, ?_, .inr ⟨f, hf, .inl rfl⟩⟩
          split <;> decide
        · cases h
          refine ⟨_, ?_, .inr ⟨f, hf, .inr rfl⟩⟩
          split <;> decide

theorem sortKeys_cons_outcome {key : SortKey} {keys : List SortKey} {orders : List String}
    (h : sortKeys scope (key :: keys) = .ok orders) :
    ∃ first others, sortKey scope key = .ok first ∧ sortKeys scope keys = .ok others ∧
      orders = first :: others := by
  unfold sortKeys at h
  split at h
  · cases h
  · rename_i first hfirst
    split at h
    · cases h
    · rename_i others hothers
      cases h
      exact ⟨first, others, hfirst, hothers, rfl⟩

theorem order_outcome {keys : List SortKey} (h : order scope keys = .ok sql) :
    ∃ orders, sortKeys scope keys = .ok orders ∧ sql = joinWith ", " orders := by
  unfold order at h
  cases ho : sortKeys scope keys with
  | error fault =>
    rw [ho] at h
    cases h
  | ok orders =>
    rw [ho] at h
    cases h
    exact ⟨orders, rfl, rfl⟩

/-- Pending operators are attached after the walk of the query they wait for. -/
theorem walk_eq_bind (q : Query) (pending : List Pending) :
    walk scope q pending = walk scope q [] >>= fun left => attachAll left pending := by
  induction q generalizing pending with
  | clause c => simp [walk, attachAll]
  | boolean op left right ihl ihr =>
    rw [walk, walk, ihl, ihl [_]]
    simp [attachAll]
  | sorted q keys ih => simp [walk, attachAll]

theorem query_clause : query scope (.clause c) = clause scope c := by
  simp [query, walk, attachAll]

/-- The operator at the root waits for the left operand alone. -/
theorem query_boolean (op : Operator) (left right : Query) :
    query scope (.boolean op left right)
      = query scope left >>=
          Pending.attach { operator := op, right, condition := fun _ => query scope right } := by
  unfold query
  rw [walk, walk_eq_bind]
  simp [attachAll]

theorem query_sorted (q : Query) (keys : List SortKey) :
    query scope (.sorted q keys) = (do
      let condition ← query scope q
      let orders ← Logged.ofExcept (order scope keys)
      pure (condition ++ " ORDER BY " ++ orders)) := by
  unfold query
  simp [walk, attachAll]

/-- Both operands are translated and combined, unless the right one is left
out after `or`. -/
theorem query_boolean_outcome {op : Operator} {left right : Query}
    (h : (query scope (.boolean op left right)).result = .ok sql) :
    ∃ l, (query scope left).result = .ok l ∧
      ((op = .or ∧ matchesAnyValue right = true ∧ sql = l) ∨
        (¬ (op = .or ∧ matchesAnyValue right = true) ∧
          ∃ r, (query scope right).result = .ok r ∧ sql = combine op l r)) := by
  rw [query_boolean] at h
  obtain ⟨l, hl, h⟩ := Logged.result_bind_eq_ok_iff.1 h
  refine ⟨l, hl, ?_⟩
  unfold Pending.attach at h
  split at h
  · rename_i hany
    rw [Logged.result_write_bind] at h
    cases h
    exact .inl ⟨hany.1, hany.2, rfl⟩
  · rename_i hany
    obtain ⟨r, hr, h⟩ := Logged.result_bind_eq_ok_iff.1 h
    cases h
    exact .inr ⟨hany, r, hr, rfl⟩

theorem query_sorted_outcome {q : Query} {keys : List SortKey}
    (h : (query scope (.sorted q keys)).result = .ok sql) :
    ∃ condition body, (query scope q).result = .ok condition ∧ order scope keys = .ok body ∧
      sql = condition ++ " ORDER BY " ++ body := by
  rw [query_sorted] at h
  obtain ⟨condition, hc, h⟩ := Logged.result_bind_eq_ok_iff.1 h
  obtain ⟨body, hb, h⟩ := Logged.result_bind_eq_ok_iff.1 h
  cases h
  exact ⟨condition, body, hc, hb, rfl⟩

end CqlToSql.Condition

namespace CqlToSql.Translator

/-- The record that a translator writes at the end changes no condition. -/
theorem result_condition (t : Translator) (q : Query) :
    (t.condition q).result = (Condition.query t.scope q).result := by
  unfold condition
  rw [Logged.result_bind]
  cases (Condition.query t.scope q).result <;> rfl

theorem result_selection (t : Translator) (q : Query) :
    (t.selection q).result = (Condition.selection t.scope q).result := by
  unfold selection
  rw [Logged.result_bind]
  cases (Condition.selection t.scope q).result <;> rfl

end CqlToSql.Translator
