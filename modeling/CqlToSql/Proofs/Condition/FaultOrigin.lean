/-
  CqlToSql.Proofs.Condition.FaultOrigin
  ─────────────────────────────────────
  **Who is to blame when a query is not translated.**  Whoever wrote the query
  is, with one exception: a search in the elements of an array needs the table
  of the document column, and a column without a dot does not name one.

      tags==/@kind=a b         on the column  users         — no table is named
      tags==/@kind=a b         on the column  users.jsonb   — the table `users`
      item.tags==/@kind=a b    on either                    — the table `item`

  A join moves the scope to a column that names its table, so the exception is
  for clauses on the searched table itself.  Each step of a translation has one
  lemma on its faults; clauses follow by recursion on their index, and queries
  by induction.

  Main statement: no translation blames the schema or the chosen indexes, the
  column is blamed only if it has no dot and a clause on the searched table asks
  for elements that are declared, and every other fault is that of the query
  (`faults_blame_query`).
-/
import CqlToSql.Proofs.Condition.ElementModifiers

namespace CqlToSql

open CqlToSql.Text

/-! ## §1. Steps that fail by the query alone. -/

/-- The fault is that of whoever wrote the query. -/
def Fault.BlamesQuery (fault : Fault) : Prop := fault.isQueryFault = true

theorem Matching.failsOnly_add (m : Matching) (modifier : Modifier) :
    FailsOnly Fault.BlamesQuery (m.add modifier) := by
  unfold Matching.add
  dsimp only
  repeat' apply FailsOnly.ite
  -- one name after another is known, and what is left is refused
  any_goals exact failsOnly_ok _
  exact failsOnly_error_iff.2 rfl

theorem Matching.failsOnly_addAll (m : Matching) (modifiers : List Modifier) :
    FailsOnly Fault.BlamesQuery (m.addAll modifiers) := by
  fun_induction Matching.addAll m modifiers with
  | case1 m => exact failsOnly_ok m
  | case2 m modifier rest m' _ ih => exact ih
  | case3 m modifier rest fault hadd =>
    exact failsOnly_error_iff.2 (m.failsOnly_add modifier fault hadd)

theorem Term.failsOnly_lexemePieces (started : Bool) (ps : List Term.Piece) :
    FailsOnly Fault.BlamesQuery (Term.lexemePieces started ps) := by
  fun_induction Term.lexemePieces started ps with
  | case1 => exact failsOnly_ok _
  | case2 started c ps text fault hrest ih =>
    exact failsOnly_error_iff.2 (ih fault hrest)
  | case3 => exact failsOnly_ok _
  | case4 => exact failsOnly_ok _
  | case5 => exact failsOnly_error_iff.2 rfl
  | case6 => exact failsOnly_error_iff.2 rfl
  | case7 => exact failsOnly_error_iff.2 rfl
  | case8 => exact failsOnly_ok _

namespace Scope

variable {scope : Scope}

theorem failsOnly_field (index : String) : FailsOnly Fault.BlamesQuery (scope.field index) :=
  FailsOnly.ite (failsOnly_error_iff.2 rfl) (failsOnly_ok _)

theorem failsOnly_joinPath (qualifier : String) :
    FailsOnly Fault.BlamesQuery (scope.joinPath qualifier) := by
  unfold Scope.joinPath
  split
  · exact failsOnly_ok _
  · exact failsOnly_ok _
  · exact failsOnly_error_iff.2 rfl
  · exact failsOnly_error_iff.2 rfl

theorem failsOnly_valueJoin (qualifier path : String) (c : Clause) :
    FailsOnly Fault.BlamesQuery (scope.valueJoin qualifier path c) := by
  unfold Scope.valueJoin
  split
  · exact failsOnly_error_iff.2 rfl
  · split
    · rename_i fault hpath
      exact failsOnly_error_iff.2 (failsOnly_joinPath qualifier fault hpath)
    · split
      · exact failsOnly_error_iff.2 rfl
      · split
        · rename_i fault hfield
          exact failsOnly_error_iff.2 (failsOnly_field c.index fault hfield)
        · exact FailsOnly.ite (failsOnly_ok _)
            (FailsOnly.ite (failsOnly_ok _) (failsOnly_error_iff.2 rfl))

end Scope

namespace Condition

variable {scope : Scope} {c : Clause} {f : CqlToSql.Field} {ix : FieldIndexes}

theorem failsOnly_lexemes (ws : List String) : FailsOnly Fault.BlamesQuery (lexemes ws) := by
  induction ws with
  | nil => exact failsOnly_ok _
  | cons w ws ih =>
    unfold lexemes
    split
    · rename_i fault hword
      exact failsOnly_error_iff.2 (((Term.failsOnly_lexemePieces _ _).map _) fault hword)
    · split
      · rename_i fault hrest
        exact failsOnly_error_iff.2 (ih fault hrest)
      · exact failsOnly_ok _

theorem failsOnly_words (term operator : String) (m : Matching) :
    FailsOnly Fault.BlamesQuery (words term operator f m ix).result := by
  unfold words
  simp only [Logged.result_warnIf_bind]
  split
  · exact failsOnly_ok _
  · split
    · exact failsOnly_ok _
    · refine Logged.failsOnly_bind ?_ fun _ _ => failsOnly_ok _
      rw [Logged.result_ofExcept]
      exact failsOnly_lexemes _

theorem failsOnly_comparison : FailsOnly Fault.BlamesQuery (comparison c f ix).result := by
  unfold comparison
  refine Logged.failsOnly_bind (Matching.failsOnly_addAll _ _) fun m _ => ?_
  dsimp only
  split
  · exact failsOnly_error_iff.2 rfl
  · rename_i strategy _
    refine Logged.failsOnly_bind ?_ fun _ _ => failsOnly_ok _
    cases strategy with
    | words operator => exact failsOnly_words c.term operator m
    | pattern negated =>
      show FailsOnly _ (pattern c.term negated f m ix).result
      rw [result_pattern]
      exact failsOnly_ok _
    | typed operator =>
      show FailsOnly _ (typed c.term operator f m ix).result
      rw [result_typed]
      exact failsOnly_ok _

theorem failsOnly_keyEquality (equal : Bool) (term : String) :
    FailsOnly Fault.BlamesQuery (keyEquality equal term) := by
  unfold keyEquality
  dsimp only
  repeat' apply FailsOnly.ite
  any_goals exact failsOnly_ok _
  exact failsOnly_error_iff.2 rfl

theorem failsOnly_primaryKey (relation : Relation) (term : String) :
    FailsOnly Fault.BlamesQuery (primaryKey relation term) := by
  unfold primaryKey
  split
  · exact failsOnly_error_iff.2 rfl
  · refine FailsOnly.ite (FailsOnly.ite (failsOnly_ok _) (failsOnly_error_iff.2 rfl)) ?_
    exact FailsOnly.ite (failsOnly_keyEquality true term)
      (FailsOnly.ite (failsOnly_keyEquality false term) (failsOnly_error_iff.2 rfl))

theorem failsOnly_sortKey (key : SortKey) : FailsOnly Fault.BlamesQuery (sortKey scope key) := by
  unfold sortKey
  split
  · rename_i fault hmatching
    exact failsOnly_error_iff.2 (Matching.failsOnly_addAll _ _ fault hmatching)
  · dsimp only
    split
    · exact failsOnly_ok _
    · split
      · rename_i fault hfield
        exact failsOnly_error_iff.2 (Scope.failsOnly_field key.index fault hfield)
      · split
        · exact failsOnly_ok _
        · exact failsOnly_ok _

theorem failsOnly_order (keys : List SortKey) :
    FailsOnly Fault.BlamesQuery (order scope keys) := by
  refine FailsOnly.map ?_ _
  induction keys with
  | nil => exact failsOnly_ok _
  | cons key keys ih =>
    unfold sortKeys
    split
    · rename_i fault hkey
      exact failsOnly_error_iff.2 (failsOnly_sortKey key fault hkey)
    · split
      · rename_i fault hrest
        exact failsOnly_error_iff.2 (ih fault hrest)
      · exact failsOnly_ok _

/-! ## §2. Searches in the elements of an array. -/

/-- The clause asks for elements of one of the fields: one of its modifiers is
an `@` with a name that the field declares. -/
def AsksElements (scope : Scope) (c : Clause) (indexes : List String) : Prop :=
  ∃ index ∈ indexes, ∃ m ∈ c.relation.modifiers, ∃ name,
    m.name = "@" ++ name ∧ (scope.indexes index).Declares name

/-- The faults of a clause on fields of the searched table. -/
inductive IsFieldFault (scope : Scope) (c : Clause) (indexes : List String) : Fault → Prop where
  | query {fault : Fault} (h : fault.BlamesQuery) : IsFieldFault scope c indexes fault
  /-- The column does not name the table that holds the elements. -/
  | noTable (hdot : '.' ∉ scope.column.toList) (h : AsksElements scope c indexes) :
      IsFieldFault scope c indexes (.column (.noTable scope.column))

theorem IsFieldFault.mono {indexes more : List String} {fault : Fault}
    (h : IsFieldFault scope c indexes fault) (hsub : ∀ index ∈ indexes, index ∈ more) :
    IsFieldFault scope c more fault := by
  cases h with
  | query h => exact .query h
  | noTable hdot h =>
    obtain ⟨index, hindex, hmod⟩ := h
    exact .noTable hdot ⟨index, hsub index hindex, hmod⟩

/-- A column that names its table leaves the query to blame. -/
theorem IsFieldFault.blamesQuery {indexes : List String} {fault : Fault}
    (h : IsFieldFault scope c indexes fault) (hdot : '.' ∈ scope.column.toList) :
    fault.BlamesQuery := by
  cases h with
  | query h => exact h
  | noTable hno _ => exact absurd hdot hno

theorem asksElements_of_elementModifier? {index name : String} {modifier : Modifier}
    (hmod : elementModifier? c.relation.modifiers = some (name, modifier))
    (hdeclares : (scope.indexes index).Declares name) : AsksElements scope c [index] := by
  rw [elementModifier?_eq_head?] at hmod
  obtain ⟨m, hm, hname⟩ := List.mem_filterMap.1 (List.mem_of_head? hmod)
  obtain ⟨rest, hrest, heq⟩ := Option.map_eq_some_iff.1 hname
  cases heq
  exact ⟨index, List.mem_cons_self, modifier, hm, name, eq_at_of_elementName? hrest, hdeclares⟩

theorem failsOnly_field (index : String) :
    FailsOnly (IsFieldFault scope c [index]) (field scope index c).result := by
  unfold field
  refine Logged.failsOnly_bind ((Scope.failsOnly_field index).mono fun _ => .query) fun f _ => ?_
  split
  · rename_i name modifier hmod
    split
    · rename_i declared part hdeclared
      have hdeclares : (scope.indexes index).Declares name :=
        FieldIndexes.Declares.of_elementModifier hdeclared
      unfold element
      split
      -- the one place where the column is to blame
      · rename_i hcut
        exact failsOnly_error_iff.2
          (.noTable (not_mem_of_cutLast hcut) (asksElements_of_elementModifier? hmod hdeclares))
      · exact Logged.failsOnly_bind (failsOnly_comparison.mono fun _ => .query)
          fun _ _ => failsOnly_ok _
    · exact failsOnly_error_iff.2 (.query rfl)
  · split
    · exact (failsOnly_primaryKey c.relation c.term).mono fun _ => .query
    · exact failsOnly_comparison.mono fun _ => .query

theorem failsOnly_fields (indexes : List String) :
    FailsOnly (IsFieldFault scope c indexes) (fields scope c indexes).result := by
  induction indexes with
  | nil => exact failsOnly_ok _
  | cons index rest ih =>
    unfold fields
    refine Logged.failsOnly_bind ((failsOnly_field index).mono fun _ h => h.mono ?_) fun _ _ => ?_
    · simp
    refine Logged.failsOnly_bind (ih.mono fun _ h => h.mono ?_) fun _ _ => failsOnly_ok _
    exact fun _ => List.mem_cons_of_mem index

theorem failsOnly_anyField :
    FailsOnly (IsFieldFault scope c scope.serverChoice) (anyField scope c).result := by
  unfold anyField
  split
  · exact failsOnly_error_iff.2 (.query rfl)
  · exact Logged.failsOnly_bind (failsOnly_fields _) fun _ _ => failsOnly_ok _

/-! ## §3. Clauses. -/

/-- The fields of the searched table that a clause is compiled to search: none
if it matches all records, or if its index or its term addresses another
table. -/
def ownFields (scope : Scope) (c : Clause) : List String :=
  if sameAsciiFold c.index allRecords then []
  else if (scope.qualifier? c.index).isSome then []
  else if (termQualifier? scope c.term).isSome then []
  else if sameAsciiFold c.index serverChoice then scope.serverChoice
  else [c.index]

theorem dot_mem_column_forTable (scope : Scope) (table : String) :
    '.' ∈ (scope.forTable table).column.toList := by
  simp [Scope.forTable, Scope.column]

theorem failsOnly_clause (scope : Scope) (c : Clause) :
    FailsOnly (IsFieldFault scope c (ownFields scope c)) (clause scope c).result := by
  by_cases hall : sameAsciiFold c.index allRecords = true
  · unfold clause
    rw [if_pos hall]
    exact failsOnly_ok _
  have hall : sameAsciiFold c.index allRecords = false := by simpa using hall
  cases hq : scope.qualifier? c.index with
  | some cut =>
    obtain ⟨qualifier, rest⟩ := cut
    rw [clause_of_qualified hall hq]
    refine Logged.failsOnly_bind ((Scope.failsOnly_joinPath qualifier).mono fun _ => .query)
      fun path _ => ?_
    split
    · exact failsOnly_error_iff.2 (.query rfl)
    · rename_i table _
      rw [Logged.result_write_bind]
      -- the joined table has a column of its own, which names it
      have hinner : FailsOnly Fault.BlamesQuery
          (clause (scope.forTable table) { c with index := rest }).result :=
        (failsOnly_clause (scope.forTable table) { c with index := rest }).mono
          fun _ h => h.blamesQuery (dot_mem_column_forTable scope table)
      exact Logged.failsOnly_bind (hinner.mono fun _ => .query) fun _ _ => failsOnly_ok _
  | none =>
    rw [clause_of_unqualified hall hq]
    split
    · rename_i qualifier path _
      exact (Scope.failsOnly_valueJoin qualifier path c).mono fun _ => .query
    · rename_i hterm
      split
      · rename_i hchoice
        have hfields : ownFields scope c = scope.serverChoice := by
          simp [ownFields, hall, hq, hterm, hchoice]
        rw [hfields]
        exact failsOnly_anyField
      · rename_i hchoice
        have hfields : ownFields scope c = [c.index] := by
          simp [ownFields, hall, hq, hterm, hchoice]
        rw [hfields]
        exact failsOnly_field c.index
termination_by c.index.toList.length
decreasing_by exact Scope.qualifier?_length hq

end Condition

/-! ## §4. Queries. -/

/-- The clauses of a query that are compiled, from left to right: an operand
like `title=*` after `or` is not. -/
def Query.compiled : Query → List Clause
  | .clause c => [c]
  | .boolean operator left right =>
    if operator = .or ∧ Condition.matchesAnyValue right then left.compiled
    else left.compiled ++ right.compiled
  | .sorted q _ => q.compiled

namespace Condition

variable {scope : Scope}

/-- The faults of a query: sort keys have none but those of the query, and any
other fault is one of a clause. -/
inductive IsQueryFault (scope : Scope) (clauses : List Clause) : Fault → Prop where
  | query {fault : Fault} (h : fault.BlamesQuery) : IsQueryFault scope clauses fault
  | clause {fault : Fault} {c : Clause} (hc : c ∈ clauses)
      (h : (Condition.clause scope c).result = .error fault) : IsQueryFault scope clauses fault

theorem IsQueryFault.mono {clauses more : List Clause} {fault : Fault}
    (h : IsQueryFault scope clauses fault) (hsub : ∀ c ∈ clauses, c ∈ more) :
    IsQueryFault scope more fault := by
  cases h with
  | query h => exact .query h
  | clause hc h => exact .clause (hsub _ hc) h

/-- The query is to blame, or a clause asks for elements of the searched table
and the column does not name it. -/
theorem IsQueryFault.blamesQuery_or_noTable {clauses : List Clause} {fault : Fault}
    (h : IsQueryFault scope clauses fault) :
    fault.BlamesQuery ∨
      fault = .column (.noTable scope.column) ∧ '.' ∉ scope.column.toList ∧
        ∃ c ∈ clauses, (Condition.clause scope c).result = .error fault ∧
          AsksElements scope c (ownFields scope c) := by
  cases h with
  | query h => exact .inl h
  | clause hc h =>
    cases failsOnly_clause _ _ fault h with
    | query hquery => exact .inl hquery
    | noTable hdot hasks => exact .inr ⟨rfl, hdot, _, hc, h, hasks⟩

theorem failsOnly_query (scope : Scope) (q : Query) :
    FailsOnly (IsQueryFault scope q.compiled) (query scope q).result := by
  induction q with
  | clause c =>
    rw [query_clause]
    exact fun fault h => .clause List.mem_cons_self h
  | boolean operator left right ihl ihr =>
    rw [query_boolean, Query.compiled]
    -- the right operand is looked at just when its clauses are among the compiled ones
    refine Logged.failsOnly_bind (ihl.mono fun _ h => h.mono ?_) fun l _ => ?_
    · intro c hc
      split
      · exact hc
      · exact List.mem_append_left _ hc
    unfold Pending.attach
    dsimp only
    split
    · exact failsOnly_ok _
    · refine Logged.failsOnly_bind (ihr.mono fun _ h => h.mono ?_) fun _ _ => failsOnly_ok _
      exact fun c hc => List.mem_append_right _ hc
  | sorted q keys ih =>
    rw [query_sorted]
    refine Logged.failsOnly_bind ih fun _ _ => ?_
    exact Logged.failsOnly_bind ((failsOnly_order keys).mono fun _ => .query)
      fun _ _ => failsOnly_ok _

theorem failsOnly_selection (scope : Scope) (q : Query) :
    FailsOnly (IsQueryFault scope q.compiled) (selection scope q).result := by
  unfold selection
  split
  · rename_i q keys
    refine Logged.failsOnly_bind (failsOnly_query scope q) fun _ _ => ?_
    exact Logged.failsOnly_bind ((failsOnly_order keys).mono fun _ => .query)
      fun _ _ => failsOnly_ok _
  · exact Logged.failsOnly_bind (failsOnly_query scope q) fun _ _ => failsOnly_ok _

end Condition

/-- What can be translated: a query text, or a query tree. -/
inductive QueryInput where
  | text (text : String)
  | tree (q : Query)
  deriving Repr, DecidableEq

/-- The clauses that are compiled; a text that is no query has none. -/
def QueryInput.compiled : QueryInput → List Clause
  | .text cql => ((Query.parse cql).toOption.map Query.compiled).getD []
  | .tree q => q.compiled

namespace Translator

variable {t : Translator} {input : QueryInput} {fault : Fault}

/-- A translation of the input ends in the fault. -/
inductive Fails (t : Translator) : QueryInput → Fault → Prop where
  | condition {q : Query} {fault : Fault} (h : (t.condition q).result = .error fault) :
      Fails t (.tree q) fault
  | selection {q : Query} {fault : Fault} (h : (t.selection q).result = .error fault) :
      Fails t (.tree q) fault
  | conditionOf {text : String} {fault : Fault} (h : (t.conditionOf text).result = .error fault) :
      Fails t (.text text) fault
  | selectionOf {text : String} {fault : Fault} (h : (t.selectionOf text).result = .error fault) :
      Fails t (.text text) fault

/-- A query text fails as a text, or as the query that it is. -/
theorem failsOnly_parse_bind {α : Type} {translate : Query → Logged α}
    (h : ∀ q, FailsOnly (Condition.IsQueryFault t.scope q.compiled) (translate q).result)
    (text : String) :
    FailsOnly (Condition.IsQueryFault t.scope (QueryInput.text text).compiled)
      (parse text >>= translate).result := by
  have hparse : (parse text).result = (Query.parse text).mapError .parse := rfl
  cases hq : Query.parse text with
  | error cause =>
    rw [hq] at hparse
    rw [Logged.result_bind, hparse]
    exact failsOnly_error_iff.2 (.query rfl)
  | ok q =>
    rw [hq] at hparse
    have hcompiled : (QueryInput.text text).compiled = q.compiled := by
      simp [QueryInput.compiled, hq, Except.toOption]
    rw [Logged.result_bind_ok hparse, hcompiled]
    exact h q

theorem isQueryFault_of_fails (h : t.Fails input fault) :
    Condition.IsQueryFault t.scope input.compiled fault := by
  have hcondition (q : Query) :
      FailsOnly (Condition.IsQueryFault t.scope q.compiled) (t.condition q).result := by
    rw [result_condition]
    exact Condition.failsOnly_query t.scope q
  have hselection (q : Query) :
      FailsOnly (Condition.IsQueryFault t.scope q.compiled) (t.selection q).result := by
    rw [result_selection]
    exact Condition.failsOnly_selection t.scope q
  cases h with
  | condition h => exact hcondition _ fault h
  | selection h => exact hselection _ fault h
  | conditionOf h => exact failsOnly_parse_bind hcondition _ fault h
  | selectionOf h => exact failsOnly_parse_bind hselection _ fault h

/-- **Faults of translations are those of the query**, with one exception.  A
translation never blames the schema or the chosen indexes.  It blames the
document column only if the first column has no dot and one of the compiled
clauses, which fails with just that fault, is on a field of the searched table
itself and asks for elements that the field declares.  In all other cases the
query is to blame. -/
theorem faults_blame_query (h : t.Fails input fault) :
    (∀ cause, fault ≠ .schema cause) ∧ (∀ cause, fault ≠ .choice cause) ∧
    (∀ cause, fault = .column cause →
      cause = .noTable (t.columns.headD "") ∧ '.' ∉ (t.columns.headD "").toList ∧
      ∃ c ∈ input.compiled, (Condition.clause t.scope c).result = .error fault ∧
        Condition.AsksElements t.scope c (Condition.ownFields t.scope c)) ∧
    ((∀ cause, fault ≠ .column cause) → fault.isQueryFault = true) := by
  rcases (isQueryFault_of_fails h).blamesQuery_or_noTable with hquery | ⟨rfl, hdot, hclause⟩
  · refine ⟨?_, ?_, ?_, fun _ => hquery⟩
    · rintro cause rfl
      cases hquery
    · rintro cause rfl
      cases hquery
    · rintro cause rfl
      cases hquery
  · refine ⟨nofun, nofun, ?_, fun hno => absurd rfl (hno _)⟩
    rintro cause ⟨⟩
    exact ⟨rfl, hdot, hclause⟩

/-- Users, whose documents are in a column that is named without its table. -/
def userTranslator : Translator where
  columns := ["users"]
  schema :=
    { tables :=
        [{ tableName := "users"
           ginIndex := [{ fieldName := "tags", arraySubfield := some "name",
                          arrayModifiers := ["kind"] }] }] }

/-- Users with a tag of some kind that have a title, or a name. -/
def taggedUsers : Query :=
  .boolean .or
    (.boolean .and (.clause ⟨"name", ⟨"==", []⟩, "x"⟩)
      (.clause ⟨"tags", ⟨"==", [⟨"@Kind", some "=", some "a"⟩]⟩, "b"⟩))
    (.clause ⟨"title", ⟨"=", []⟩, "*"⟩)

/-- The clause on names does not fail, the one on tags does. -/
theorem faults_blame_column_of_tags :
    (userTranslator.selection taggedUsers).result = .error (.column (.noTable "users")) ∧
    '.' ∉ (userTranslator.columns.headD "").toList ∧
    ∃ c ∈ taggedUsers.compiled, Condition.AsksElements userTranslator.scope c
      (Condition.ownFields userTranslator.scope c) := by
  have hfails : (userTranslator.selection taggedUsers).result
      = .error (.column (.noTable "users")) :=
    Logged.result_eq_error_iff.2 (by decide +kernel)
  obtain ⟨-, -, hcolumn, -⟩ := faults_blame_query (.selection hfails)
  obtain ⟨-, hdot, c, hc, -, hasks⟩ := hcolumn _ rfl
  exact ⟨hfails, hdot, c, hc, hasks⟩

end Translator

end CqlToSql
