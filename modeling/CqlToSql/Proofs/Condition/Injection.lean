/-
  CqlToSql.Proofs.Condition.Injection
  ───────────────────────────────────
  **Queries cannot change the skeleton of a condition.**  For each index there
  are finitely many forms that the conditions of its clauses can have, fixed
  by the configuration: whatever the search term, the relation and the values
  of modifiers are, they end up inside literals, or choose one of the forms.
  Only a numeric constant stands outside literals, in the places that the
  form has for it.
-/
import CqlToSql.Proofs.Condition.Balance
import CqlToSql.Proofs.Sql.Skeleton

namespace CqlToSql.Condition

open CqlToSql.Text CqlToSql.Sql

variable {scope : Scope} {c : Clause} {f : CqlToSql.Field} {ix : FieldIndexes} {m : Matching}
  {sql body : String}

/-- The clause compares numbers, and its term is a numeric constant. -/
def IsNumberClause (c : Clause) : Prop :=
  isNumeric c.term = true ∧
    ∃ m, Matching.ofModifiers c.relation.modifiers = .ok m ∧ m.format = .number

/-- The condition of the clause has one of the forms. -/
abbrev HasForm (forms : List (List Slot)) (c : Clause) (sql : String) : Prop :=
  Fits forms (IsNumberClause c) c.term sql

/-! ## §1. Literals in conditions. -/

theorem skeleton_unaccented {s : String} (hs : EndsOutside s) :
    skeleton (unaccented s) = skeleton "f_unaccent(" ++ skeleton s ++ skeleton ")" :=
  skeleton_between (by decide) hs (by decide)

theorem skeleton_lowered {s : String} (hs : EndsOutside s) :
    skeleton (lowered s) = skeleton "lower(" ++ skeleton s ++ skeleton ")" :=
  skeleton_between (by decide) hs (by decide)

/-- Texts with one skeleton have one skeleton when they are folded. -/
theorem skeleton_folded (g : Folding) {s s' : String} (hs : Balanced false s)
    (hs' : Balanced false s') (h : skeleton s = skeleton s') :
    skeleton (g.apply s) = skeleton (g.apply s') := by
  obtain ⟨lower, unaccent⟩ := g
  cases lower <;> cases unaccent
  · exact h
  · show skeleton (unaccented s) = skeleton (unaccented s')
    rw [skeleton_unaccented hs.endsOutside, skeleton_unaccented hs'.endsOutside, h]
  · show skeleton (lowered s) = skeleton (lowered s')
    rw [skeleton_lowered hs.endsOutside, skeleton_lowered hs'.endsOutside, h]
  · show skeleton (lowered (unaccented s)) = skeleton (lowered (unaccented s'))
    rw [skeleton_lowered hs.unaccented.endsOutside, skeleton_lowered hs'.unaccented.endsOutside,
      skeleton_unaccented hs.endsOutside, skeleton_unaccented hs'.endsOutside, h]

theorem balanced_literal (hb : IsBody body.toList) : Balanced false (literal body) :=
  Balanced.literal hb.balancedInside

/-- What stands in a folded literal does not show in the skeleton. -/
theorem skeleton_folded_literal (g : Folding) (hb : IsBody body.toList) :
    skeleton (g.apply (literal body)) = skeleton (g.apply (literal "")) :=
  skeleton_folded g (balanced_literal hb) (balanced_literal isBody_empty)
    (hb.skeleton_literal.trans (isBody_empty.skeleton_literal).symm)

theorem skeleton_wordsText (hf : Balanced false f.text) (hb : IsBody body.toList) :
    skeleton (wordsText f ix body) = skeleton (wordsText f ix "") := by
  -- all that stands before the operands
  have hstart : EndsInCode ("to_tsvector('simple', " ++ (wordsFolding ix).apply f.text
      ++ ") @@ to_tsquery('simple', ") := by
    have hfield := (hf.folded (wordsFolding ix)).endsOutside
    have hopen : EndsInCode "to_tsvector('simple', " := by decide
    exact (hopen.append_outside hfield).append_inCode (by decide) (by decide)
  have hends : ∀ {b : String}, IsBody b.toList →
      EndsOutside ((wordsFolding ix).apply (literal b)) := fun hb =>
    ((balanced_literal hb).folded (wordsFolding ix)).endsOutside
  unfold wordsText
  rw [skeleton_between hstart (hends hb) (by decide),
    skeleton_between hstart (hends isBody_empty) (by decide), skeleton_folded_literal _ hb]

theorem skeleton_patternMatch (negated : Bool) (g : Folding) {text : String}
    (ht : Balanced false text) (hb : IsBody body.toList) :
    skeleton (patternMatch negated g text (literal body)) =
      skeleton (patternMatch negated g text (literal "")) := by
  have hstart : EndsInCode (g.apply text ++ if negated then " NOT LIKE " else " LIKE ") := by
    refine (ht.folded g).endsOutside.append_inCode ?_ ?_ <;> cases negated <;> decide
  unfold patternMatch
  rw [hstart.skeleton_append, hstart.skeleton_append, skeleton_folded_literal g hb]

/-! ## §2. Forms of comparisons. -/

/-- All foldings. -/
def foldings : List Folding := [⟨false, false⟩, ⟨false, true⟩, ⟨true, false⟩, ⟨true, true⟩]

theorem mem_foldings (g : Folding) : g ∈ foldings := by
  obtain ⟨lower, unaccent⟩ := g
  cases lower <;> cases unaccent <;> decide

/-- A pattern match that may be followed by a second one. -/
def patternText (negated : Bool) (f : CqlToSql.Field) (ix : FieldIndexes) (second : Option Folding)
    (body : String) : String :=
  match second with
  | none => patternMatch negated (Folding.ofIndex ix.forPattern) f.text (literal body)
  | some g =>
    patternMatch negated (Folding.ofIndex ix.forPattern) f.text (literal body) ++ " AND "
      ++ patternMatch negated g f.text (literal body)

theorem skeleton_patternText (negated : Bool) (second : Option Folding)
    (hf : Balanced false f.text) (hb : IsBody body.toList) :
    skeleton (patternText negated f ix second body) =
      skeleton (patternText negated f ix second "") := by
  cases second with
  | none => exact skeleton_patternMatch negated _ hf hb
  | some g =>
    have hends : ∀ {b : String}, IsBody b.toList → EndsOutside
        (patternMatch negated (Folding.ofIndex ix.forPattern) f.text (literal b)) := fun hb =>
      (balanced_patternMatch negated _ hf (balanced_literal hb)).endsOutside
    have hjoin : ∀ {b : String}, IsBody b.toList → ∀ {rest : String},
        skeleton (patternMatch negated (Folding.ofIndex ix.forPattern) f.text (literal b) ++ " AND "
          ++ rest) =
        skeleton (patternMatch negated (Folding.ofIndex ix.forPattern) f.text (literal b))
          ++ skeleton " AND " ++ skeleton rest := by
      intro b hb rest
      rw [((hends hb).append_inCode (by decide) (by decide)).skeleton_append,
        skeleton_append (hends hb) (by decide)]
    unfold patternText
    rw [hjoin hb, hjoin isBody_empty, skeleton_patternMatch negated _ hf hb,
      skeleton_patternMatch negated g hf hb]

/-- The beginning of a comparison of numbers. -/
def numberStart (f : CqlToSql.Field) (operator : String) : String :=
  "(" ++ f.text ++ ")::numeric " ++ operator

/-- The forms of the conditions that a strategy gives. -/
def strategyForms (f : CqlToSql.Field) (ix : FieldIndexes) : Strategy → List (List Slot)
  | .words _ => [skeleton "true", skeleton (f.text ++ " ~ ''"), skeleton (wordsText f ix "")]
  | .pattern negated =>
    skeleton (patternText negated f ix none "")
      :: foldings.map fun g => skeleton (patternText negated f ix (some g) "")
  | .typed operator =>
    [skeleton (numberStart f operator) ++ [.number],
     skeleton (numberStart f operator ++ literal ""),
     skeleton (f.text ++ " " ++ operator ++ literal "")]

theorem typed_operator_plain {operator : String} (h : Strategy.typed operator ∈ strategies) :
    StartsInCode operator ∧ EndsInCode operator := by
  have hall : ∀ op ∈ typedOperators, StartsInCode op ∧ EndsInCode op := by decide
  exact hall operator (mem_typedOperators h)

/-- Each strategy gives conditions of its forms. -/
theorem hasForm_strategy {strategy : Strategy} (hs : strategy ∈ strategies)
    (hf : Balanced false f.text) (hm : Matching.ofModifiers c.relation.modifiers = .ok m)
    (h : (strategy.condition c.term f m ix).result = .ok sql) :
    HasForm (strategyForms f ix strategy) c sql := by
  have hlike := isBody_like c.term
  cases strategy with
  | words operator =>
    rcases words_outcome h with ⟨-, rfl⟩ | ⟨-, rfl⟩ | ⟨-, -, operands, ho, rfl⟩
    · exact .of_skeleton _ (by simp [strategyForms]) rfl
    · exact .of_skeleton _ (by simp [strategyForms]) rfl
    -- the operands and the operators between them are the body of one literal
    · have hbody := (isBody_operator hs).joinWith (isBody_lexemes ho)
      exact .of_skeleton _ (by simp [strategyForms]) (skeleton_wordsText hf hbody)
  | pattern negated =>
    rw [Strategy.condition, result_pattern, Except.ok.injEq] at h
    subst h
    split
    · exact .of_skeleton _ (by simp [strategyForms])
        (skeleton_patternText negated none hf hlike)
    -- a second match with the folding that the modifiers ask for
    · refine .of_skeleton _ ?_
        (skeleton_patternText negated (some (Folding.ofMatching m)) hf hlike)
      exact List.mem_cons_of_mem _ (List.mem_map.2 ⟨_, mem_foldings _, rfl⟩)
  | typed operator =>
    obtain ⟨hstarts, hop⟩ := typed_operator_plain hs
    rw [Strategy.condition, result_typed, Except.ok.injEq] at h
    subst h
    split
    · rename_i hformat
      have hopen : EndsInCode "(" := by decide
      have hcast : EndsInCode ("(" ++ f.text ++ ")::numeric ") :=
        (hopen.append_outside hf.endsOutside).append_inCode (by decide) (by decide)
      have hstart : EndsInCode (numberStart f operator) := hcast.append hop
      split
      · rename_i hnumeric
        -- the number stands as it is behind the operator
        have hquote : '\'' ∉ c.term.toList :=
          not_mem_of_isNumeric (by decide) (by decide) hnumeric
        refine ⟨skeleton (numberStart f operator) ++ [.number], by simp [strategyForms], ?_, ?_⟩
        · show skeleton (numberStart f operator ++ c.term) = _
          rw [hstart.skeleton_append, fill_append, fill_skeleton, skeleton_of_no_quote hquote]
          simp [fill]
        · exact fun _ => ⟨hnumeric, m, hm, hformat⟩
      · refine .of_skeleton (numberStart f operator ++ literal "")
          (by simp [strategyForms]) ?_
        show skeleton (numberStart f operator ++ literal (Term.like c.term)) = _
        rw [hstart.skeleton_append, hstart.skeleton_append, hlike.skeleton_literal,
          isBody_empty.skeleton_literal]
    · have hblank : EndsInCode (f.text ++ " ") :=
        hf.endsOutside.append_inCode (by decide) (by decide)
      refine .of_skeleton (f.text ++ " " ++ operator ++ literal "")
        (by simp [strategyForms]) ?_
      rw [(hblank.append hop).skeleton_append, (hblank.append hop).skeleton_append,
        hlike.skeleton_literal, isBody_empty.skeleton_literal]

/-- The forms of comparisons with a field. -/
def comparisonForms (f : CqlToSql.Field) (ix : FieldIndexes) : List (List Slot) :=
  strategies.flatMap (strategyForms f ix)

theorem hasForm_comparison (hf : Balanced false f.text)
    (h : (comparison c f ix).result = .ok sql) : HasForm (comparisonForms f ix) c sql := by
  obtain ⟨m, strategy, hm, hs, hsql⟩ := comparison_outcome h
  have hmem := strategy?_mem hs
  refine (hasForm_strategy hmem hf hm hsql).mono ?_
  exact fun form hform => List.mem_flatMap.2 ⟨strategy, hmem, hform⟩

/-! ## §3. Forms of clauses on fields. -/

/-- Two literals in fixed text. -/
theorem skeleton_two_literals {start middle close x y : String} (hs : EndsInCode start)
    (hms : StartsInCode middle) (hm : EndsInCode middle) (hc : StartsInCode close)
    (hx : IsBody x.toList) (hy : IsBody y.toList) :
    skeleton (start ++ literal x ++ middle ++ literal y ++ close) =
      skeleton start ++ [.hole] ++ skeleton middle ++ [.hole] ++ skeleton close := by
  have hfirst := hs.append_outside (balanced_literal hx).endsOutside
  rw [skeleton_between (hfirst.append_inCode hms hm) (balanced_literal hy).endsOutside hc,
    skeleton_between hs (balanced_literal hx).endsOutside hms, hx.skeleton_literal,
    hy.skeleton_literal]

theorem skeleton_keyRange (equal : Bool) {lowest highest : String} (hl : IsBody lowest.toList)
    (hh : IsBody highest.toList) :
    skeleton (keyRange equal lowest highest) = skeleton (keyRange equal "" "") := by
  have hstart : EndsInCode ("(" ++ keyColumn ++ if equal then ">=" else "<") := by
    cases equal <;> decide
  have hstarts : StartsInCode
      ((if equal then " and " else " or ") ++ keyColumn ++ if equal then "<=" else ">") := by
    cases equal <;> decide
  have hmiddle : EndsInCode
      ((if equal then " and " else " or ") ++ keyColumn ++ if equal then "<=" else ">") := by
    cases equal <;> decide
  rw [keyRange_eq, keyRange_eq, skeleton_two_literals hstart hstarts hmiddle (by decide) hl hh,
    skeleton_two_literals hstart hstarts hmiddle (by decide) isBody_empty isBody_empty]

/-- The forms of conditions on the primary key. -/
def keyForms : List (List Slot) :=
  ([true, false].flatMap fun equal =>
    [skeleton (constantKey equal), skeleton (invalidKey equal), skeleton (keyRange equal "" "")])
  ++ [">", "<", ">=", "<=", "=", "<>"].map fun op => skeleton (keyColumn ++ op ++ literal "")

theorem hasForm_primaryKey (h : primaryKey c.relation c.term = .ok sql) :
    HasForm keyForms c sql := by
  cases primaryKey_outcome h with
  | constant equal =>
    refine .of_skeleton _ (List.mem_append_left _ ?_) rfl
    cases equal <;> simp
  | invalid equal =>
    refine .of_skeleton _ (List.mem_append_left _ ?_) rfl
    cases equal <;> simp
  | compared hop huuid =>
    rename_i op
    have hcode : EndsInCode (keyColumn ++ op) := by
      simp only [List.mem_cons, List.not_mem_nil, or_false] at hop
      rcases hop with rfl | rfl | rfl | rfl | rfl | rfl <;> decide
    refine .of_skeleton _ (List.mem_append_right _ (List.mem_map.2 ⟨op, hop, rfl⟩)) ?_
    rw [hcode.skeleton_append, hcode.skeleton_append,
      (isBody_of_isUuid huuid).skeleton_literal, isBody_empty.skeleton_literal]
  | range equal hl hh =>
    refine .of_skeleton _ (List.mem_append_left _ ?_)
      (skeleton_keyRange equal (isBody_of_isUuid hl) (isBody_of_isUuid hh))
    cases equal <;> simp

/-- The beginning of a search in array elements. -/
def elementStart (array table member : String) : String :=
  "id in (select t.id from (select id as id, jsonb_array_elements(" ++ array ++ ") as c from "
    ++ table ++ ") as t where t.c @> " ++ literal member ++ " and "

theorem elementStart_spec {array table member : String} (ha : Balanced false array)
    (ht : Balanced false table) (hm : IsBody member.toList) :
    EndsInCode (elementStart array table member) ∧
      skeleton (elementStart array table member) = skeleton (elementStart array table "") := by
  have hselect : EndsInCode "id in (select t.id from (select id as id, jsonb_array_elements(" := by
    decide
  have hfrom : EndsInCode ("id in (select t.id from (select id as id, jsonb_array_elements("
      ++ array ++ ") as c from ") :=
    (hselect.append_outside ha.endsOutside).append_inCode (by decide) (by decide)
  have hwhere := (hfrom.append_outside ht.endsOutside).append_inCode
    (show StartsInCode ") as t where t.c @> " by decide) (by decide)
  have hmember := (balanced_literal hm).endsOutside
  have hempty := (balanced_literal isBody_empty).endsOutside
  refine ⟨(hwhere.append_outside hmember).append_inCode (by decide) (by decide), ?_⟩
  unfold elementStart
  rw [skeleton_between hwhere hmember (by decide), skeleton_between hwhere hempty (by decide),
    hm.skeleton_literal, isBody_empty.skeleton_literal]

/-- The parts of array elements that indexes declare. -/
def declaredParts (ix : FieldIndexes) : List String :=
  ix.all.flatMap fun i => i.arrayModifiers.map fun name => i.arraySubfield.getD name

/-- The forms of searches in array elements. -/
def elementForms (scope : Scope) (index : String) : List (List Slot) :=
  match cutLast '.' scope.column with
  | none => []
  | some (_, column) =>
    (declaredParts (scope.indexes index)).flatMap fun part =>
      (comparisonForms (CqlToSql.Field.at "t.c" part) (scope.indexes index)).map fun form =>
        skeleton (elementStart (jsonPath column index) scope.table "") ++ form ++ skeleton ")"

theorem hasForm_element (hs : scope.IsBalanced false) {index : String} (hq : '\'' ∉ index.toList)
    {name declared part value : String}
    (hd : (scope.indexes index).elementModifier name = some (declared, part))
    (h : (element scope index c declared part value).result = .ok sql) :
    HasForm (elementForms scope index) c sql := by
  obtain ⟨before, column, condition, hcut, hcond, rfl⟩ := element_outcome h
  obtain ⟨i, hi, hmem, rfl⟩ := elementModifier_declared hd
  have harray : Balanced false (jsonPath column index) :=
    (hs.bareColumn (before, column) hcut).jsonPath (IsBody.of_no_quote hq).balancedInside
  have hc : Balanced false "t.c" := by decide
  have htext : Balanced false (CqlToSql.Field.at "t.c" (i.arraySubfield.getD declared)).text :=
    hc.textPath ((hs.of_mem_indexes hi).part declared hmem)
  obtain ⟨hcode, hskel⟩ :=
    elementStart_spec harray hs.table (isBody_memberLiteral declared value)
  -- the value of the modifier is in a literal before the comparison with the part
  have hform := (hasForm_comparison htext hcond).between hcode
    (balanced_comparison htext hcond).endsOutside (show StartsInCode ")" by decide)
  rw [hskel] at hform
  refine Fits.mono hform ?_
  intro form hmemform
  unfold elementForms
  rw [hcut]
  refine List.mem_flatMap.2 ⟨i.arraySubfield.getD declared, ?_, hmemform⟩
  exact List.mem_flatMap.2 ⟨i, hi, List.mem_map.2 ⟨declared, hmem, rfl⟩⟩

/-- The forms of clauses on a field. -/
def fieldForms (scope : Scope) (index : String) : List (List Slot) :=
  elementForms scope index ++ keyForms ++
    match scope.field index with
    | .ok f => comparisonForms f (scope.indexes index)
    | .error _ => []

theorem hasForm_field (hs : scope.IsBalanced false) {index : String}
    (h : (field scope index c).result = .ok sql) : HasForm (fieldForms scope index) c sql := by
  obtain ⟨expressions, he, h⟩ := field_outcome h
  obtain ⟨htext, -, hq⟩ := hs.field he
  unfold fieldForms
  rcases h with ⟨name, modifier, declared, part, -, hdecl, h⟩ | ⟨-, -, h⟩ | ⟨-, -, h⟩
  · refine (hasForm_element hs hq hdecl h).mono ?_
    exact fun form hform => List.mem_append_left _ (List.mem_append_left _ hform)
  · refine (hasForm_primaryKey h).mono ?_
    exact fun form hform => List.mem_append_left _ (List.mem_append_right _ hform)
  · refine (hasForm_comparison htext h).mono ?_
    intro form hform
    rw [he]
    exact List.mem_append_right _ hform

/-- The forms of clauses on one of several fields. -/
def fieldsForms (scope : Scope) : List String → List (List Slot)
  | [] => [[]]
  | [index] => fieldForms scope index
  | index :: next :: rest =>
    (fieldForms scope index).flatMap fun f =>
      (fieldsForms scope (next :: rest)).map fun g => f ++ skeleton " OR " ++ g

theorem hasForm_fields (hs : scope.IsBalanced false) {indexes conditions : List String}
    (h : (fields scope c indexes).result = .ok conditions) :
    HasForm (fieldsForms scope indexes) c (joinWith " OR " conditions) := by
  induction indexes generalizing conditions with
  | nil =>
    cases h
    exact .of_skeleton "" (by simp [fieldsForms, skeleton, marks, Scan.marks, Scan.finish]) rfl
  | cons index rest ih =>
    obtain ⟨first, others, hfirst, hothers, rfl⟩ := fields_cons_outcome h
    have hform := hasForm_field hs hfirst
    cases rest with
    | nil =>
      cases hothers
      exact hform
    | cons next rest =>
      obtain ⟨second, remaining, -, -, rfl⟩ := fields_cons_outcome hothers
      exact hform.join (balanced_field hs hfirst).endsOutside (by decide) (by decide) (ih hothers)

/-! ## §4. Forms of joins. -/

theorem exists_intoParentForms {hop : Hop} (hh : hop.IsBalanced false) (forms : List (List Slot)) :
    ∃ wrapped, ∀ (c : Clause) (inner : String), EndsOutside inner → HasForm forms c inner →
      HasForm wrapped c (hop.intoParent inner) := by
  have hopen : EndsInCode "(" := by decide
  have hselect := (hopen.append_outside hh.keyText.endsOutside).append_inCode
    (show StartsInCode ")::UUID IN  ( SELECT " by decide) (by decide)
  have hfrom := (hselect.append (show EndsInCode keyColumn by decide)).append
    (show EndsInCode " from " by decide)
  have hstart := (hfrom.append_outside hh.target.endsOutside).append_inCode
    (show StartsInCode " WHERE " by decide) (by decide)
  exact ⟨_, fun c inner hi h => h.between hstart hi (show StartsInCode ")" by decide)⟩

theorem exists_intoChildForms {hop : Hop} (hh : hop.IsBalanced false) (forms : List (List Slot)) :
    ∃ wrapped, ∀ (c : Clause) (inner : String), EndsOutside inner → HasForm forms c inner →
      HasForm wrapped c (hop.intoChild inner) := by
  have hdot := hh.target.endsOutside.append_inCode (show StartsInCode "." by decide) (by decide)
  have hselect := (hdot.append (show EndsInCode keyColumn by decide)).append
    (show EndsInCode " IN  ( SELECT (" by decide)
  have hfrom := (hselect.append_outside hh.keyText.endsOutside).append_inCode
    (show StartsInCode ")::UUID from " by decide) (by decide)
  have hstart := (hfrom.append_outside hh.table.endsOutside).append_inCode
    (show StartsInCode " WHERE " by decide) (by decide)
  exact ⟨_, fun c inner hi h => h.between hstart hi (show StartsInCode ")" by decide)⟩

/-- Hop after hop, finitely many forms become finitely many forms. -/
theorem exists_foldrForms {into : Hop → String → String} {hops : List Hop}
    (hb : ∀ hop ∈ hops, ∀ inner, Balanced false inner → Balanced false (into hop inner))
    (hf : ∀ hop ∈ hops, ∀ forms, ∃ wrapped, ∀ (c : Clause) (inner : String), EndsOutside inner →
      HasForm forms c inner → HasForm wrapped c (into hop inner)) (forms : List (List Slot)) :
    ∃ nested, ∀ (c : Clause) (inner : String), Balanced false inner → HasForm forms c inner →
      HasForm nested c (hops.foldr into inner) := by
  induction hops with
  | nil => exact ⟨forms, fun _ _ _ h => h⟩
  | cons hop hops ih =>
    have hbrest : ∀ other ∈ hops, ∀ inner, Balanced false inner → Balanced false (into other inner) :=
      fun other hmem => hb other (List.mem_cons_of_mem _ hmem)
    obtain ⟨nested, hnested⟩ := ih hbrest fun other hmem => hf other (List.mem_cons_of_mem _ hmem)
    obtain ⟨wrapped, hwrapped⟩ := hf hop List.mem_cons_self nested
    refine ⟨wrapped, fun c inner hi h => ?_⟩
    -- the innermost condition is wrapped hop by hop, from the last one outwards
    have hrest : Balanced false (hops.foldr into inner) :=
      List.foldrRecOn hops into hi fun b hbal a ha => hbrest a ha b hbal
    exact hwrapped c _ hrest.endsOutside (hnested c inner hi h)

/-- Along a join, finitely many forms become finitely many forms. -/
theorem exists_nestForms {path : JoinPath} (hp : ∀ hop ∈ path.hops, hop.IsBalanced false)
    (forms : List (List Slot)) :
    ∃ nested, ∀ (c : Clause) (inner : String), Balanced false inner → HasForm forms c inner →
      HasForm nested c (path.nest inner) := by
  cases path with
  | toParent hops =>
    exact exists_foldrForms (fun hop hmem _ hi => (hp hop hmem).intoParent hi)
      (fun hop hmem => exists_intoParentForms (hp hop hmem)) forms
  | toChild hops =>
    exact exists_foldrForms (fun hop hmem _ hi => (hp hop hmem).intoChild hi)
      (fun hop hmem => exists_intoChildForms (hp hop hmem)) forms

/-! ## §5. Forms of clauses. -/

/-- The table that an index joins, and how. -/
structure Joins (scope : Scope) (index qualifier rest table : String) (path : JoinPath) : Prop where
  qualified : scope.qualifier? index = some (qualifier, rest)
  joined : scope.joinPath qualifier = .ok path
  final : path.finalTable? = some table

theorem Joins.balanced_hops (hs : scope.IsBalanced false) {index qualifier rest table : String}
    {path : JoinPath} (hj : Joins scope index qualifier rest table path) :
    ∀ hop ∈ path.hops, hop.IsBalanced false :=
  fun hop hmem => hs.hop (scope.declares_of_joinPath hj.joined hop hmem)

theorem Joins.isBalanced_forTable (hs : scope.IsBalanced false)
    {index qualifier rest table : String} {path : JoinPath}
    (hj : Joins scope index qualifier rest table path) :
    (scope.forTable table).IsBalanced false :=
  hs.forTable (JoinPath.balanced_finalTable (hj.balanced_hops hs) hj.final)

/-- The clauses on an index have conditions of these forms. -/
def ClausesFit (scope : Scope) (index : String) (forms : List (List Slot)) : Prop :=
  ∀ (c : Clause) (sql : String), c.index = index → (clause scope c).result = .ok sql →
    HasForm forms c sql

/-- The forms of the clauses on an index that joins a table, from those of the
rest of the index on that table. -/
theorem exists_joinedForms (hs : scope.IsBalanced false) {index qualifier rest table : String}
    {path : JoinPath} (hj : Joins scope index qualifier rest table path) {forms : List (List Slot)}
    (hforms : ClausesFit (scope.forTable table) rest forms) :
    ∃ nested, ∀ (c : Clause) (inner : String),
      (clause (scope.forTable table) { c with index := rest }).result = .ok inner →
      HasForm nested c (path.nest inner) := by
  obtain ⟨nested, hnested⟩ := exists_nestForms (hj.balanced_hops hs) forms
  refine ⟨nested, fun c inner hinner => ?_⟩
  have hform : HasForm forms c inner := hforms { c with index := rest } inner rfl hinner
  exact hnested c inner (balanced_clause (hj.isBalanced_forTable hs) hinner) hform

/-- In strict mode the clauses of an index have finitely many forms.  A join
leads to another table with a shorter index. -/
theorem exists_clauseForms {scope : Scope} (hs : scope.IsBalanced false)
    (hmode : scope.mode = .strict) (index : String) : ∃ forms, ClausesFit scope index forms := by
  -- an index joins at most one table, so its forms can be named before the clause is known
  have hjoined : ∃ forms, ∀ (c : Clause) (qualifier rest table : String) (path : JoinPath)
      (inner : String), Joins scope index qualifier rest table path →
      (clause (scope.forTable table) { c with index := rest }).result = .ok inner →
      HasForm forms c (path.nest inner) := by
    by_cases hex : ∃ qualifier rest table path, Joins scope index qualifier rest table path
    · obtain ⟨qualifier, rest, table, path, hj⟩ := hex
      have hlen := Scope.qualifier?_length hj.qualified
      obtain ⟨forms, hforms⟩ := exists_clauseForms (hj.isBalanced_forTable hs) hmode rest
      obtain ⟨nested, hnested⟩ := exists_joinedForms hs hj hforms
      refine ⟨nested, fun c qualifier' rest' table' path' inner hj' hinner => ?_⟩
      cases hj.qualified.symm.trans hj'.qualified
      cases hj.joined.symm.trans hj'.joined
      cases hj.final.symm.trans hj'.final
      exact hnested c inner hinner
    · refine ⟨[], fun c qualifier rest table path inner hj => ?_⟩
      exact absurd ⟨qualifier, rest, table, path, hj⟩ hex
  obtain ⟨joined, hjoined⟩ := hjoined
  refine ⟨skeleton "true" :: joined ++ fieldsForms scope scope.serverChoice
    ++ fieldForms scope index, ?_⟩
  rintro c sql rfl h
  rcases clause_outcome h with rfl | ⟨qualifier, rest, path, table, inner, hq, hp, ht, hi, rfl⟩ |
    ⟨qualifier, path, hq, -⟩ | h | h
  · exact .of_skeleton "true" (by simp) rfl
  · refine Fits.mono (hjoined c qualifier rest table path inner ⟨hq, hp, ht⟩ hi) ?_
    intro form hform
    simp [hform]
  · -- only the permissive mode compares with the values of another table
    simp [termQualifier?, hmode] at hq
  · obtain ⟨conditions, -, hconditions, rfl⟩ := anyField_outcome h
    refine (hasForm_fields hs hconditions).mono ?_
    intro form hform
    simp [hform]
  · refine (hasForm_field hs h).mono ?_
    intro form hform
    simp [hform]
termination_by index.toList.length

end CqlToSql.Condition

namespace CqlToSql.Translator

open CqlToSql.Text CqlToSql.Sql

/-! ## §6. Translators without quotes in their names. -/

/-- No name that conditions put into literals or between them has a quote,
and expressions close their literals. -/
structure IsQuoteFree (t : Translator) : Prop where
  checked : t.schema.check = .ok ()
  columns : ∀ column ∈ t.columns, '\'' ∉ column.toList
  keys : ∀ table ∈ t.schema.tables, ∀ k ∈ table.foreignKeys, '\'' ∉ k.fieldName.toList
  subfields : ∀ table ∈ t.schema.tables, ∀ i ∈ table.allIndexes, ∀ part ∈ i.arraySubfield,
    '\'' ∉ part.toList
  compounds : ∀ table ∈ t.schema.tables, ∀ i ∈ table.allIndexes, ∀ names ∈ i.multiFieldNames,
    '\'' ∉ names.toList
  expressions : ∀ table ∈ t.schema.tables, ∀ i ∈ table.allIndexes, ∀ sql ∈ i.sqlExpression,
    EndsOutside sql

/-- The modifiers that name the compared part of an array element, because no
part is declared, have no quote. -/
def HasQuoteFreeParts (t : Translator) : Prop :=
  ∀ table ∈ t.schema.tables, ∀ i ∈ table.allIndexes, i.arraySubfield = none →
    ∀ name ∈ i.arrayModifiers, '\'' ∉ name.toList

theorem not_mem_tableOfColumn {x : Char} {column : String} (h : x ∉ column.toList) :
    x ∉ (tableOfColumn column).toList := by
  unfold tableOfColumn
  split
  · rename_i last table rest hsplit
    have hmem : table ∈ splitAt '.' column := by
      rw [← List.mem_reverse, hsplit]
      simp
    exact not_mem_of_mem_splitAt h hmem
  · exact h

theorem not_mem_of_cutLast {x : Char} {s : String} {cut : String × String} (h : x ∉ s.toList)
    (hc : cut ∈ cutLast '.' s) : x ∉ cut.2.toList := by
  obtain ⟨⟨before, rest⟩, hcut, rfl⟩ := Option.map_eq_some_iff.1 hc
  rw [eq_of_cutLastChars hcut] at h
  simp_all

/-- Without quotes in its names a translator is balanced. -/
theorem IsQuoteFree.isBalanced {t : Translator} (ht : t.IsQuoteFree) (hp : t.HasQuoteFreeParts) :
    t.scope.IsBalanced false where
  table := by
    apply keeps_of_no_quote
    show '\'' ∉ ((t.columns.head?.map tableOfColumn).getD "").toList
    cases hc : t.columns with
    | nil => decide
    | cons first rest => exact not_mem_tableOfColumn (ht.columns first (by simp [hc]))
  columns := fun column hmem => keeps_of_no_quote (ht.columns column hmem)
  bareColumn := by
    intro cut hcut
    apply keeps_of_no_quote
    refine not_mem_of_cutLast ?_ hcut
    show '\'' ∉ (t.columns.headD "").toList
    cases hc : t.columns with
    | nil => decide
    | cons first rest => exact ht.columns first (by simp [hc])
  tables := by
    intro table htable
    obtain ⟨hname, htargets⟩ := Schema.isIdentifier_of_checkTables ht.checked table htable
    refine ⟨balanced_of_isIdentifier hname, ?_, ?_, ?_⟩
    · intro i hi
      refine ⟨?_, ?_, ?_⟩
      · exact fun sql hsql => (ht.expressions table htable i hi sql hsql).balanced
      · intro names hnames name hname
        have hquote := ht.compounds table htable i hi names hnames
        exact (IsBody.of_no_quote (not_mem_of_mem_splitAt hquote hname)).balancedInside
      · intro name hname
        apply IsBody.balancedInside
        apply IsBody.of_no_quote
        -- without a declared part the modifier stands for it
        cases hpart : i.arraySubfield with
        | none => exact hp table htable i hi hpart name hname
        | some part => exact ht.subfields table htable i hi part hpart
    · exact fun k hk => balanced_of_isIdentifier (htargets k hk)
    · exact fun k hk => (IsBody.of_no_quote (ht.keys table htable k hk)).balancedInside

/-! ## §7. Injection safety. -/

/-- **Every literal that a condition opens is closed in it, and the skeletons
of the clauses on an index are finitely many.**  Numeric constants fill the
places that forms have for them. -/
theorem endsOutside_and_finite_forms (t : Translator) (ht : t.IsQuoteFree)
    (hp : t.HasQuoteFreeParts) (hmode : t.mode = .strict) :
    (∀ q sql, (t.condition q).result = .ok sql → EndsOutside sql) ∧
    (∀ q s, (t.selection q).result = .ok s → EndsOutside s.condition ∧ EndsOutside s.order) ∧
    ∀ index, ∃ forms : List (List Slot), ∀ (c : Clause) (sql : String), c.index = index →
      (Condition.clause t.scope c).result = .ok sql →
      skeleton sql ∈ forms ∨
        Condition.IsNumberClause c ∧ ∃ form ∈ forms, skeleton sql = fill c.term form := by
  have hs := ht.isBalanced hp
  refine ⟨?_, ?_, ?_⟩
  · intro q sql h
    rw [result_condition] at h
    exact (Condition.balanced_query hs h).endsOutside
  · intro q s h
    rw [result_selection] at h
    obtain ⟨hcondition, horder⟩ := Condition.balanced_selection hs h
    exact ⟨hcondition.endsOutside, horder.endsOutside⟩
  · intro index
    obtain ⟨forms, hforms⟩ := Condition.exists_clauseForms hs hmode index
    exact ⟨forms, fun c sql hc h => (hforms c sql hc h).mem_or⟩

/-- Hostile values against a schema with a join and array elements:
`parents.f ==/@kind="'" "') or ('"`. -/
theorem endsOutside_hostile_query :
    let t : Translator :=
      { columns := ["children.jsonb"]
        schema :=
          { tables :=
              [{ tableName := "children"
                 foreignKeys := [{ fieldName := "parentId", targetTable := "parents" }] },
               { tableName := "parents"
                 index :=
                   [{ fieldName := "f", arraySubfield := some "value", arrayModifiers := ["kind"] },
                    { fieldName := "g", sqlExpression := some "lower(jsonb->>'g')" },
                    { fieldName := "h", multiFieldNames := some "f.a, g" }] }] } }
    let q : Query :=
      .clause
        { index := "parents.f"
          relation :=
            { base := "=="
              modifiers := [{ name := "@kind", comparison := some "=", value := some "'" }] }
          term := "') or ('" }
    t.IsQuoteFree ∧ t.HasQuoteFreeParts ∧ t.mode = .strict ∧
      (∃ sql, (t.condition q).result = .ok sql ∧ EndsOutside sql) ∧
      ∃ forms : List (List Slot), ∀ (c : Clause) (sql : String), c.index = "parents.f" →
        (Condition.clause t.scope c).result = .ok sql →
        skeleton sql ∈ forms ∨
          Condition.IsNumberClause c ∧ ∃ form ∈ forms, skeleton sql = fill c.term form := by
  intro t q
  have ht : t.IsQuoteFree :=
    { checked := rfl
      columns := by decide +kernel
      keys := by decide +kernel
      subfields := by decide +kernel
      compounds := by decide +kernel
      expressions := by decide +kernel }
  have hp : t.HasQuoteFreeParts := by
    unfold HasQuoteFreeParts
    decide +kernel
  obtain ⟨hclosed, -, hforms⟩ := endsOutside_and_finite_forms t ht hp rfl
  have hsql : (t.condition q).result = .ok
      ("(children.jsonb->>'parentId')::UUID IN  ( SELECT id from parents WHERE "
        ++ "id in (select t.id from (select id as id, jsonb_array_elements(jsonb->'f') as c "
        ++ "from parents) as t where t.c @> '\x7b\"kind\": \"''\"\x7d' and "
        ++ "lower(f_unaccent(t.c->>'value')) LIKE lower(f_unaccent(''') or ('''))))") :=
    Logged.result_eq_ok_iff.2 (by decide +kernel)
  exact ⟨ht, hp, rfl, ⟨_, hsql, hclosed q _ hsql⟩, hforms "parents.f"⟩

/-- A modifier that stands for the compared part is written into a literal as
it is, and its quote closes that literal: `f =/@o'k=v x`. -/
theorem condition_open_literal :
    let t : Translator :=
      { columns := ["t.jsonb"]
        schema :=
          { tables :=
              [{ tableName := "t", index := [{ fieldName := "f", arrayModifiers := ["o'k"] }] }] } }
    let q : Query :=
      .clause
        { index := "f"
          relation :=
            { base := "="
              modifiers := [{ name := "@o'k", comparison := some "=", value := some "v" }] }
          term := "x" }
    t.mode = .strict ∧ t.IsQuoteFree ∧
      ∃ sql, (t.condition q).result = .ok sql ∧ ¬ EndsOutside sql := by
  intro t q
  have ht : t.IsQuoteFree :=
    { checked := rfl
      columns := by decide +kernel
      keys := by decide +kernel
      subfields := by decide +kernel
      compounds := by decide +kernel
      expressions := by decide +kernel }
  have hsql : (t.condition q).result = .ok
      ("id in (select t.id from (select id as id, jsonb_array_elements(jsonb->'f') as c from t) "
        ++ "as t where t.c @> '\x7b\"o''k\": \"v\"\x7d' and to_tsvector('simple', "
        ++ "f_unaccent(t.c->>'o'k')) @@ to_tsquery('simple', f_unaccent('x')))") :=
    Logged.result_eq_ok_iff.2 (by decide +kernel)
  exact ⟨rfl, ht, _, hsql, by decide +kernel⟩

end CqlToSql.Translator
