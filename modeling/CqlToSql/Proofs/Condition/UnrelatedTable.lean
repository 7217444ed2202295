/-
  CqlToSql.Proofs.Condition.UnrelatedTable
  ────────────────────────────────────────
  **Queries do not see an unrelated table.**  A query that does not name the
  table is translated in the same way with and without it, down to the records
  of the log.  The scope moves along joins and stays on tables that were there:

      scope.table ≠ T.tableName      — kept by every join
      parts of the name ∉ T.labels   — kept, as the rest of a name has fewer parts

  One lemma for each step of the translation says that the step is the same;
  clauses follow by recursion on their index, and queries by induction.
-/
import CqlToSql.Proofs.Condition.Balance
import CqlToSql.Proofs.Schema.UnrelatedTable

namespace CqlToSql

open CqlToSql.Text

/-- No part of the dotted name is a label of the table. -/
def Table.Avoids (T : Table) (name : String) : Prop := ∀ part ∈ splitAt '.' name, part ∉ T.labels

instance (T : Table) (name : String) : Decidable (T.Avoids name) :=
  inferInstanceAs (Decidable (∀ part ∈ splitAt '.' name, part ∉ T.labels))

variable {scope : Scope} {T : Table} {name qualifier rest : String}

/-- A qualifier is one part of a name, and the rest holds the others. -/
theorem Table.Avoids.of_cutFirst (h : T.Avoids name)
    (hcut : cutFirst '.' name = some (qualifier, rest)) :
    qualifier ∉ T.labels ∧ T.Avoids rest := by
  have hparts := splitAt_of_cutFirst hcut
  constructor
  · exact h qualifier (by rw [hparts]; exact List.mem_cons_self)
  · exact fun part hp => h part (by rw [hparts]; exact List.mem_cons_of_mem _ hp)

namespace Scope

/-! ## §1. The searched table and its fields. -/

/-- The scope with one more table at the end of its schema. -/
def extend (scope : Scope) (T : Table) : Scope :=
  { scope with schema := scope.schema.extend T }

theorem schema_extend (scope : Scope) (T : Table) :
    (scope.extend T).schema = scope.schema.extend T := rfl

theorem table_extend (scope : Scope) (T : Table) : (scope.extend T).table = scope.table := rfl

theorem indexes_extend (h : scope.table ≠ T.tableName) (index : String) :
    (scope.extend T).indexes index = scope.indexes index := by
  show (scope.schema.extend T).fieldIndexes scope.table (scope.resolve index).2 = _
  rw [Schema.fieldIndexes, Schema.table?_extend h]
  rfl

theorem field_extend (h : scope.table ≠ T.tableName) (index : String) :
    (scope.extend T).field index = scope.field index := by
  unfold field
  rw [indexes_extend h]
  rfl

/-! ## §2. Other tables. -/

theorem qualifier?_extend (hu : scope.schema.IsUnrelated T) (h : scope.table ≠ T.tableName)
    (hname : T.Avoids name) : (scope.extend T).qualifier? name = scope.qualifier? name := by
  unfold qualifier?
  cases hcut : cutFirst '.' name with
  | none => rfl
  | some cut =>
    obtain ⟨qualifier, rest⟩ := cut
    have hlabel := (hname.of_cutFirst hcut).1
    rw [schema_extend, table_extend]
    dsimp only
    rw [Schema.table?_extend h, Schema.isTableOrAlias_extend hu hlabel]

/-- What a qualifier leaves of a name avoids the labels that the name avoids. -/
theorem avoids_of_qualifier? (h : T.Avoids name)
    (hq : scope.qualifier? name = some (qualifier, rest)) :
    qualifier ∉ T.labels ∧ T.Avoids rest := by
  unfold qualifier? at hq
  split at hq
  · cases hq
  · rename_i hcut
    split at hq
    · cases hq
    · split at hq
      · cases hq
      · split at hq
        · cases hq
          exact h.of_cutFirst hcut
        · cases hq

theorem joinPath_extend (hu : scope.schema.IsUnrelated T) (h : scope.table ≠ T.tableName)
    (hlabel : qualifier ∉ T.labels) :
    (scope.extend T).joinPath qualifier = scope.joinPath qualifier := by
  unfold joinPath
  rw [schema_extend, table_extend, Schema.pathToAlias_extend hu h,
    Schema.pathFromAlias_extend hu hlabel]

/-- Joins lead to tables that were there, or that keys of such tables point at. -/
theorem finalTable_ne (hu : scope.schema.IsUnrelated T) {path : JoinPath} {table : String}
    (hpath : scope.joinPath qualifier = .ok path) (htable : path.finalTable? = some table) :
    table ≠ T.tableName := by
  have hdeclares := scope.declares_of_joinPath hpath
  cases path with
  | toParent hops =>
    -- the last key points at the final table
    obtain ⟨hop, hlast, rfl⟩ := Option.map_eq_some_iff.1 htable
    obtain ⟨t, ht, k, hk, rfl⟩ := hdeclares hop (List.mem_of_getLast? hlast)
    exact hu.untargeted t ht k hk
  | toChild hops =>
    -- the last key belongs to the final table
    obtain ⟨hop, hlast, rfl⟩ := Option.map_eq_some_iff.1 htable
    obtain ⟨t, ht, k, hk, rfl⟩ := hdeclares hop (List.mem_of_getLast? hlast)
    exact hu.name t ht

theorem valueJoin_extend (hu : scope.schema.IsUnrelated T) (h : scope.table ≠ T.tableName)
    (hlabel : qualifier ∉ T.labels) (path : String) (c : Clause) :
    (scope.extend T).valueJoin qualifier path c = scope.valueJoin qualifier path c := by
  unfold valueJoin
  rw [joinPath_extend hu h hlabel, schema_extend, Schema.tableForAlias_extend hu hlabel,
    field_extend h]

end Scope

namespace Condition

/-! ## §3. Clauses. -/

variable {c : Clause}

theorem element_extend (h : scope.table ≠ T.tableName) (index name part value : String) :
    element (scope.extend T) index c name part value = element scope index c name part value := by
  unfold element
  rw [Scope.indexes_extend h]
  rfl

theorem field_extend (h : scope.table ≠ T.tableName) (index : String) :
    field (scope.extend T) index c = field scope index c := by
  unfold field
  simp only [Scope.field_extend h, Scope.indexes_extend h, element_extend h]

theorem fields_extend (h : scope.table ≠ T.tableName) (indexes : List String) :
    fields (scope.extend T) c indexes = fields scope c indexes := by
  induction indexes with
  | nil => rfl
  | cons index rest ih => rw [fields, fields, field_extend h, ih]

theorem anyField_extend (h : scope.table ≠ T.tableName) :
    anyField (scope.extend T) c = anyField scope c := by
  have hchoice : (scope.extend T).serverChoice = scope.serverChoice := rfl
  rw [anyField, anyField, hchoice, fields_extend h]

/-- The clause names no label of the table: not in its index, nor in its term
where that can address a table. -/
structure IsApart (mode : JoinMode) (T : Table) (c : Clause) : Prop where
  index : T.Avoids c.index
  term : mode = .permissive → T.Avoids c.term

instance (mode : JoinMode) (T : Table) (c : Clause) : Decidable (IsApart mode T c) :=
  decidable_of_iff (T.Avoids c.index ∧ (mode = .permissive → T.Avoids c.term))
    ⟨fun h => ⟨h.1, h.2⟩, fun h => ⟨h.index, h.term⟩⟩

theorem termQualifier?_extend (hu : scope.schema.IsUnrelated T) (h : scope.table ≠ T.tableName)
    (hc : IsApart scope.mode T c) :
    termQualifier? (scope.extend T) c.term = termQualifier? scope c.term := by
  have hmode : (scope.extend T).mode = scope.mode := rfl
  unfold termQualifier?
  rw [hmode]
  cases hpermissive : scope.mode with
  | strict => rfl
  | permissive => exact Scope.qualifier?_extend hu h (hc.term hpermissive)

theorem not_label_of_termQualifier? {path : String} (hc : IsApart scope.mode T c)
    (hterm : termQualifier? scope c.term = some (qualifier, path)) : qualifier ∉ T.labels := by
  unfold termQualifier? at hterm
  split at hterm
  · cases hterm
  · rename_i hpermissive
    exact (Scope.avoids_of_qualifier? (hc.term hpermissive) hterm).1

/-- A clause that names no label is translated in the same way. -/
theorem clause_extend {scope : Scope} {c : Clause} (hu : scope.schema.IsUnrelated T)
    (h : scope.table ≠ T.tableName) (hc : IsApart scope.mode T c) :
    clause (scope.extend T) c = clause scope c := by
  by_cases hall : sameAsciiFold c.index allRecords = true
  · rw [clause, clause, if_pos hall, if_pos hall]
  · have hall : sameAsciiFold c.index allRecords = false := by simpa using hall
    have hqualifier := Scope.qualifier?_extend hu h hc.index
    cases hq : scope.qualifier? c.index with
    | none =>
      rw [hq] at hqualifier
      rw [clause_of_unqualified hall hqualifier, clause_of_unqualified hall hq,
        termQualifier?_extend hu h hc]
      cases hterm : termQualifier? scope c.term with
      | none => rw [anyField_extend h, field_extend h]
      | some cut =>
        obtain ⟨qualifier, path⟩ := cut
        have hlabel := not_label_of_termQualifier? hc hterm
        dsimp only
        rw [Scope.valueJoin_extend hu h hlabel]
    | some cut =>
      obtain ⟨qualifier, rest⟩ := cut
      obtain ⟨hlabel, hrest⟩ := Scope.avoids_of_qualifier? hc.index hq
      rw [hq] at hqualifier
      rw [clause_of_qualified hall hqualifier, clause_of_qualified hall hq,
        Scope.joinPath_extend hu h hlabel]
      refine Logged.bind_congr fun path hpath => ?_
      cases htable : path.finalTable? with
      | none => rfl
      | some table =>
        -- the join leads to a table that was there, and the index gets shorter
        have hfinal := Scope.finalTable_ne hu hpath htable
        have hlen := Scope.qualifier?_length hq
        have hinner : clause ((scope.forTable table).extend T) { c with index := rest }
            = clause (scope.forTable table) { c with index := rest } :=
          clause_extend hu hfinal ⟨hrest, hc.term⟩
        dsimp only
        rw [Scope.table_extend]
        show (Logged.write .debug _ >>= fun _ =>
          clause ((scope.forTable table).extend T) { c with index := rest } >>= _) = _
        rw [hinner]
termination_by c.index.toList.length

/-! ## §4. Queries. -/

theorem sortKey_extend (h : scope.table ≠ T.tableName) (key : SortKey) :
    sortKey (scope.extend T) key = sortKey scope key := by
  unfold sortKey
  rw [Scope.field_extend h]

theorem order_extend (h : scope.table ≠ T.tableName) (keys : List SortKey) :
    order (scope.extend T) keys = order scope keys := by
  have hkeys : sortKeys (scope.extend T) keys = sortKeys scope keys := by
    induction keys with
    | nil => rfl
    | cons key keys ih => rw [sortKeys, sortKeys, sortKey_extend h, ih]
  rw [order, order, hkeys]

end Condition

/-- The clauses of a query, from left to right. -/
def Query.clauses : Query → List Clause
  | .clause c => [c]
  | .boolean _ left right => left.clauses ++ right.clauses
  | .sorted q _ => q.clauses

namespace Condition

theorem query_extend (hu : scope.schema.IsUnrelated T) (h : scope.table ≠ T.tableName) {q : Query}
    (hq : ∀ c ∈ q.clauses, IsApart scope.mode T c) :
    query (scope.extend T) q = query scope q := by
  induction q with
  | clause c =>
    rw [query_clause, query_clause, clause_extend hu h (hq c List.mem_cons_self)]
  | boolean operator left right ihl ihr =>
    have hleft : ∀ c ∈ left.clauses, IsApart scope.mode T c := fun c hc =>
      hq c (List.mem_append_left _ hc)
    have hright : ∀ c ∈ right.clauses, IsApart scope.mode T c := fun c hc =>
      hq c (List.mem_append_right _ hc)
    rw [query_boolean, query_boolean, ihl hleft, ihr hright]
  | sorted q keys ih =>
    rw [query_sorted, query_sorted, ih hq, order_extend h]

theorem selection_extend (hu : scope.schema.IsUnrelated T) (h : scope.table ≠ T.tableName)
    {q : Query} (hq : ∀ c ∈ q.clauses, IsApart scope.mode T c) :
    selection (scope.extend T) q = selection scope q := by
  unfold selection
  split
  · rename_i q keys
    have hclauses : ∀ c ∈ q.clauses, IsApart scope.mode T c := hq
    rw [query_extend hu h hclauses, order_extend h]
  · rw [query_extend hu h hq]

end Condition

namespace Translator

/-- **Queries do not see an unrelated table.**  A table is appended to the
schema, with a new name that no foreign key points at and with keys that point
at tables that are there.  A translator for another table translates every
query that does not name it in the same way as before, with the same records
in the log or with the same fault. -/
theorem selection_unrelated_table {t : Translator} {T : Table} {q : Query}
    (hu : t.schema.IsUnrelated T) (ht : t.tableName ≠ T.tableName)
    (hq : ∀ c ∈ q.clauses, Condition.IsApart t.mode T c) :
    { t with schema := t.schema.extend T }.selection q = t.selection q ∧
      { t with schema := t.schema.extend T }.condition q = t.condition q := by
  have hscope : { t with schema := t.schema.extend T }.scope = t.scope.extend T := rfl
  have hselection : Condition.selection (t.scope.extend T) q = Condition.selection t.scope q :=
    Condition.selection_extend hu ht hq
  have hcondition : Condition.query (t.scope.extend T) q = Condition.query t.scope q :=
    Condition.query_extend hu ht hq
  constructor
  · rw [selection, hscope, hselection]
    rfl
  · rw [condition, hscope, hcondition]
    rfl

/-- Items, with their holdings and their loans. -/
def itemTranslator : Translator where
  columns := ["item.jsonb"]
  schema :=
    { tables :=
        [{ tableName := "holding" },
         { tableName := "item"
           foreignKeys := [{ fieldName := "holdingId", targetTable := "holding" }] },
         { tableName := "loan"
           foreignKeys :=
             [{ fieldName := "itemId", targetTable := "item", tableAlias := some "lending" }] }] }
  mode := .permissive

/-- Requests for items and recalls of loans. -/
def requestTable : Table where
  tableName := "request"
  foreignKeys :=
    [{ fieldName := "itemId", targetTable := "item", targetTableAlias := some "wanted" },
     { fieldName := "loanId", targetTable := "loan", tableAlias := some "recall" }]

/-- A join down, a comparison with another table and a sort key. -/
def lendingQuery : Query :=
  .sorted
    (.boolean .and (.clause ⟨"lending.note", ⟨"==", []⟩, "x.y"⟩)
      (.clause ⟨"title", ⟨"=", []⟩, "holding.name"⟩))
    [⟨"title", []⟩]

/-- The table of requests is a child of two of the tables, one of them reached
by the query. -/
theorem selection_unrelated_requests :
    itemTranslator.schema.IsUnrelated requestTable ∧
    (∀ c ∈ lendingQuery.clauses, Condition.IsApart itemTranslator.mode requestTable c) ∧
    ({ itemTranslator with
        schema := itemTranslator.schema.extend requestTable }.selection lendingQuery).result = .ok
      { condition :=
          "(item.id IN  ( SELECT (loan.jsonb->>'itemId')::UUID from loan WHERE "
            ++ "lower(f_unaccent(loan.jsonb->>'note')) LIKE lower(f_unaccent('x.y')))) AND "
            ++ "(item.jsonb->>'title' IN  ( SELECT holding.jsonb->>'name' from holding))"
        order := "lower(f_unaccent(item.jsonb->>'title'))" } := by
  have hu : itemTranslator.schema.IsUnrelated requestTable := by decide +kernel
  have hq : ∀ c ∈ lendingQuery.clauses, Condition.IsApart itemTranslator.mode requestTable c := by
    decide +kernel
  refine ⟨hu, hq, ?_⟩
  rw [(selection_unrelated_table hu (by decide +kernel) hq).1]
  exact Logged.result_eq_ok_iff.2 (by decide +kernel)

end Translator

end CqlToSql
