/-
  CqlToSql.Proofs.Condition.SeveralColumns
  ────────────────────────────────────────
  **Several document columns of one table.**  With more than one column an index
  names its column in front of the path:

      columns  t.jsonb, t.extra        index  t.extra.name
      column   t.extra                 index  name

  Both lines are meant to search the same field.  The declared indexes and the
  expressions of the field come from the column and the path that the index is
  cut into.  A search in the elements of an array takes the first column and the
  whole index instead.

  Main statement: the two translations succeed together, and they are the same
  text just when no modifier addresses elements.
-/
import CqlToSql.Proofs.Condition.ServerChoice
import CqlToSql.Proofs.Text.Characters

namespace CqlToSql

open CqlToSql.Text

variable {schema : Schema} {columns choice : List String} {mode : JoinMode}
  {table column name path : String}

/-! ## §1. Columns of one table. -/

/-- The columns are several, and each of them is the table, a dot and a name. -/
structure ColumnsOf (table : String) (columns : List String) : Prop where
  several : 1 < columns.length
  undotted : '.' ∉ table.toList
  named : ∀ column ∈ columns, ∃ name, column = table ++ "." ++ name ∧ '.' ∉ name.toList
  unquoted : ∀ column ∈ columns, '\'' ∉ column.toList

theorem tableOfColumn_append (ht : '.' ∉ table.toList) (hn : '.' ∉ name.toList) :
    tableOfColumn (table ++ "." ++ name) = table := by
  rw [tableOfColumn, splitAt_append, splitAt_of_not_mem ht, splitAt_of_not_mem hn]
  rfl

/-- The searched table is the one that the columns belong to. -/
theorem ColumnsOf.table_ofColumns (h : ColumnsOf table columns) :
    (Scope.ofColumns columns schema choice mode).table = table := by
  obtain ⟨first, rest, hcolumns⟩ : ∃ first rest, columns = first :: rest :=
    List.exists_cons_of_length_pos (Nat.lt_trans Nat.zero_lt_one h.several)
  obtain ⟨name, hfirst, hname⟩ := h.named first (by simp [hcolumns])
  simp [Scope.ofColumns, hcolumns, hfirst, tableOfColumn_append h.undotted hname]

/-- A column is cut into the table and its own name. -/
theorem ColumnsOf.cutLast_column (h : ColumnsOf table columns) (hcolumn : column ∈ columns) :
    ∃ name, cutLast '.' column = some (table, name) ∧ '\'' ∉ name.toList := by
  obtain ⟨name, rfl, hname⟩ := h.named column hcolumn
  have hquote := h.unquoted _ hcolumn
  simp only [String.toList_append, List.mem_append, not_or] at hquote
  exact ⟨name, cutLast_append table hname, hquote.2⟩

theorem ColumnsOf.headD_mem (h : ColumnsOf table columns) : columns.headD "" ∈ columns := by
  obtain ⟨first, rest, rfl⟩ : ∃ first rest, columns = first :: rest :=
    List.exists_cons_of_length_pos (Nat.lt_trans Nat.zero_lt_one h.several)
  exact List.mem_cons_self

/-- The column in front of an index is the only one that the index can be cut
after. -/
theorem ColumnsOf.eq_of_after (h : ColumnsOf table columns) {other rest : String}
    (hcolumn : column ∈ columns) (hother : other ∈ columns)
    (hafter : after (other ++ ".") (column ++ "." ++ path) = some rest) :
    other = column ∧ rest = path := by
  obtain ⟨name, rfl, hname⟩ := h.named column hcolumn
  obtain ⟨name', rfl, hname'⟩ := h.named other hother
  rw [after_eq_some_iff] at hafter
  have hrest : name ++ "." ++ path = name' ++ "." ++ rest := by
    simpa [String.append_assoc] using hafter
  have hcut := cutFirst_append path hname
  rw [hrest, cutFirst_append rest hname'] at hcut
  cases hcut
  exact ⟨rfl, rfl⟩

/-- An index is cut into its column and the path inside it. -/
theorem ColumnsOf.resolve_append (h : ColumnsOf table columns) (hcolumn : column ∈ columns) :
    (Scope.ofColumns columns schema choice mode).resolve (column ++ "." ++ path)
      = (column, path) := by
  show (if columns.length > 1 then selectColumn columns (column ++ "." ++ path) else _) = _
  rw [if_pos h.several, selectColumn]
  have hafter : after (column ++ ".") (column ++ "." ++ path) = some path :=
    after_eq_some_iff.2 rfl
  split
  · rename_i selected hfound
    obtain ⟨other, hother, hselected⟩ := List.exists_of_findSome?_eq_some hfound
    obtain ⟨rest, hrest, rfl⟩ := Option.map_eq_some_iff.1 hselected
    obtain ⟨rfl, rfl⟩ := h.eq_of_after hcolumn hother hrest
    rfl
  · rename_i hnone
    have := List.findSome?_eq_none_iff.1 hnone column hcolumn
    simp [hafter] at this

/-! ## §2. Indexes. -/

/-- The path names a field, and neither the primary key nor another table nor an
index with a meaning of its own. -/
structure IsFieldPath (schema : Schema) (path : String) : Prop where
  notKey : path ≠ keyColumn
  notAll : sameAsciiFold path allRecords = false
  notChoice : sameAsciiFold path serverChoice = false
  unquoted : '\'' ∉ path.toList
  unqualified : ∀ first rest, cutFirst '.' path = some (first, rest) →
    schema.isTableOrAlias first = false

/-- A text with two dots is none with one dot, whatever the letter case. -/
theorem sameAsciiFold_of_dots {s t : String} (hs : 2 ≤ s.toList.count '.')
    (ht : (t.toList.map asciiLower).count '.' < 2) : sameAsciiFold s t = false := by
  unfold sameAsciiFold
  rw [beq_eq_false_iff_ne]
  intro heq
  have hle : s.toList.count '.' ≤ (s.toList.map asciiLower).count (asciiLower '.') :=
    List.count_le_count_map
  rw [heq] at hle
  exact absurd (Nat.le_trans hs hle) (Nat.not_le.2 ht)

theorem ColumnsOf.two_dots (h : ColumnsOf table columns) (hcolumn : column ∈ columns)
    (path : String) :
    2 ≤ (column ++ "." ++ path).toList.count '.' := by
  obtain ⟨name, rfl, -⟩ := h.named column hcolumn
  simp only [String.toList_append, List.count_append]
  have hdot : ".".toList.count '.' = 1 := by decide
  omega

namespace Condition

/-- An index with its column in front names a field of the searched table. -/
theorem isFieldIndex_several (h : ColumnsOf table columns) (hcolumn : column ∈ columns) :
    IsFieldIndex (Scope.ofColumns columns schema choice mode) (column ++ "." ++ path) where
  notAll := sameAsciiFold_of_dots (h.two_dots hcolumn path) (by decide)
  notChoice := sameAsciiFold_of_dots (h.two_dots hcolumn path) (by decide)
  unqualified := by
    obtain ⟨name, rfl, -⟩ := h.named column hcolumn
    have hindex : table ++ "." ++ name ++ "." ++ path = table ++ "." ++ (name ++ "." ++ path) := by
      simp [String.append_assoc]
    -- what stands before the first dot is the searched table itself
    rw [Scope.qualifier?, hindex, cutFirst_append _ h.undotted, h.table_ofColumns]
    simp

theorem isFieldIndex_single (hpath : IsFieldPath schema path) :
    IsFieldIndex (Scope.ofColumns [column] schema choice mode) path where
  notAll := hpath.notAll
  notChoice := hpath.notChoice
  unqualified := by
    unfold Scope.qualifier?
    split
    · rfl
    · rename_i first rest hcut
      have hfirst : (Scope.ofColumns [column] schema choice mode).schema.isTableOrAlias first
          = false :=
        hpath.unqualified first rest hcut
      simp [hfirst]

/-! ## §3. Two names of one field. -/

variable {s₁ s₂ : Scope} {i₁ i₂ term sql : String} {relation : Relation}

/-- Two indexes that are cut into the same column and path of the same table. -/
structure SameField (s₁ : Scope) (i₁ : String) (s₂ : Scope) (i₂ : String) : Prop where
  table : s₁.table = s₂.table
  schema : s₁.schema = s₂.schema
  resolve : s₁.resolve i₁ = s₂.resolve i₂
  unquoted₁ : '\'' ∉ i₁.toList
  unquoted₂ : '\'' ∉ i₂.toList
  notKey₁ : i₁ ≠ keyColumn
  notKey₂ : i₂ ≠ keyColumn

namespace SameField

theorem symm (h : SameField s₁ i₁ s₂ i₂) : SameField s₂ i₂ s₁ i₁ where
  table := h.table.symm
  schema := h.schema.symm
  resolve := h.resolve.symm
  unquoted₁ := h.unquoted₂
  unquoted₂ := h.unquoted₁
  notKey₁ := h.notKey₂
  notKey₂ := h.notKey₁

theorem indexes (h : SameField s₁ i₁ s₂ i₂) : s₁.indexes i₁ = s₂.indexes i₂ := by
  rw [Scope.indexes, Scope.indexes, h.table, h.schema, h.resolve]

theorem exists_field (h : SameField s₁ i₁ s₂ i₂) :
    ∃ f, s₁.field i₁ = .ok f ∧ s₂.field i₂ = .ok f := by
  unfold Scope.field
  rw [if_neg (by simpa using h.unquoted₁), if_neg (by simpa using h.unquoted₂), h.indexes,
    h.resolve]
  exact ⟨_, rfl, rfl⟩

/-- A comparison of the field itself depends on the column and the path alone. -/
theorem field_of_plain (h : SameField s₁ i₁ s₂ i₂)
    (hmod : elementModifiers relation.modifiers = [])
    (hsql : (field s₁ i₁ ⟨i₁, relation, term⟩).result = .ok sql) :
    (field s₂ i₂ ⟨i₂, relation, term⟩).result = .ok sql := by
  obtain ⟨f, hf₁, hf₂⟩ := h.exists_field
  have hnone : elementModifier? relation.modifiers = none := by
    rw [elementModifier?_eq_head?, hmod, List.head?_nil]
  rw [result_field_of_plain hf₁ hnone, if_neg h.notKey₁, h.indexes] at hsql
  rw [result_field_of_plain hf₂ hnone, if_neg h.notKey₂]
  exact comparison_of_same (c := ⟨i₁, relation, term⟩) rfl rfl hsql

/-- A search in elements takes its array from the first column and the whole
index, and all else from the column and the path. -/
theorem field_of_element (h : SameField s₁ i₁ s₂ i₂) {m : String × Modifier}
    {ms : List (String × Modifier)} {b₁ b₂ n₁ n₂ : String}
    (hcut₁ : cutLast '.' s₁.column = some (b₁, n₁)) (hcut₂ : cutLast '.' s₂.column = some (b₂, n₂))
    (hmod : elementModifiers relation.modifiers = m :: ms)
    (hsql : (field s₁ i₁ ⟨i₁, relation, term⟩).result = .ok sql) :
    ∃ declared value condition,
      sql = elementSearch (jsonPath n₁ i₁) s₁.table declared value condition ∧
      (field s₂ i₂ ⟨i₂, relation, term⟩).result
        = .ok (elementSearch (jsonPath n₂ i₂) s₁.table declared value condition) := by
  obtain ⟨f, hf₁, hf₂⟩ := h.exists_field
  have hsome : elementModifier? relation.modifiers = some (m.1, m.2) := by
    rw [elementModifier?_eq_head?, hmod, List.head?_cons]
  rw [field_eq_ok_iff_of_element hf₁ hsome] at hsql
  obtain ⟨declared, part, before, column, condition, hdecl, hcut, hcondition, rfl⟩ := hsql
  rw [hcut₁] at hcut
  cases hcut
  rw [h.indexes] at hdecl hcondition
  refine ⟨declared, m.2.value.getD "", condition, rfl, ?_⟩
  rw [field_eq_ok_iff_of_element hf₂ hsome, h.table]
  exact ⟨declared, part, b₂, n₂, condition, hdecl, hcut₂,
    comparison_of_same (c := ⟨i₁, relation, term⟩) rfl rfl hcondition, rfl⟩

end SameField

/-- A path behind a column, and the path alone where that is the only column. -/
theorem sameField_of_columnsOf (h : ColumnsOf table columns) (hcolumn : column ∈ columns)
    (hpath : IsFieldPath schema path) :
    SameField (Scope.ofColumns columns schema choice mode) (column ++ "." ++ path)
      (Scope.ofColumns [column] schema choice mode) path where
  table := by
    obtain ⟨name, rfl, hdot⟩ := h.named column hcolumn
    rw [h.table_ofColumns]
    exact (tableOfColumn_append h.undotted hdot).symm
  schema := rfl
  resolve := by
    rw [h.resolve_append hcolumn]
    rfl
  unquoted₁ := by simp [h.unquoted column hcolumn, hpath.unquoted]
  unquoted₂ := hpath.unquoted
  notKey₁ := by
    intro heq
    have hdots := h.two_dots hcolumn path
    rw [heq] at hdots
    exact absurd hdots (by decide)
  notKey₂ := hpath.notKey

/-! ## §4. Two arrays. -/

/-- The quotes of a path, two for each of its parts. -/
theorem count_jsonSteps {parts : List String} (h : ∀ part ∈ parts, '\'' ∉ part.toList) :
    (jsonSteps parts).toList.count '\'' = 2 * parts.length := by
  induction parts with
  | nil => rfl
  | cons part parts ih =>
    have hpart : part.toList.count '\'' = 0 := List.count_eq_zero.2 (h part List.mem_cons_self)
    have hrest := ih fun p hp => h p (List.mem_cons_of_mem _ hp)
    have hopen : "->'".toList.count '\'' = 1 := by decide
    have hclose : "'".toList.count '\'' = 1 := by decide
    simp only [jsonSteps, String.toList_append, List.count_append, List.length_cons]
    omega

theorem count_jsonPath (hc : '\'' ∉ column.toList) (hp : '\'' ∉ path.toList) :
    (jsonPath column path).toList.count '\'' = 2 * (splitAt '.' path).length := by
  rw [jsonPath, String.toList_append, List.count_append, List.count_eq_zero.2 hc,
    count_jsonSteps fun part hpart => not_mem_of_mem_splitAt hp hpart, Nat.zero_add]

/-- An array is taken for another one when its column counts as a part of its
path. -/
theorem jsonPath_ne_of_column {first : String} (hf : '\'' ∉ first.toList)
    (hc : '\'' ∉ column.toList) (hn : '\'' ∉ name.toList) (hp : '\'' ∉ path.toList) :
    jsonPath first (column ++ "." ++ path) ≠ jsonPath name path := by
  intro heq
  have hindex : '\'' ∉ (column ++ "." ++ path).toList := by simp [hc, hp]
  have hcount := count_jsonPath hf hindex
  rw [heq, count_jsonPath hn hp, splitAt_append, List.length_append] at hcount
  have hpos : 0 < (splitAt '.' column).length :=
    List.length_pos_iff.2 (splitAt_ne_nil '.' column)
  omega

/-- Two searches in elements with the same text search the same array. -/
theorem elementSearch_inj {a b table name value condition : String}
    (h : elementSearch a table name value condition = elementSearch b table name value condition) :
    a = b := by
  unfold elementSearch at h
  simpa using h

/-! ## §5. Clauses. -/

/-- **Columns in front of an index.**  A clause on a path behind the name of one
of several columns is translated just when the clause on the path alone is, in a
scope with that column only.  The two are the same text just when no modifier
addresses the elements of an array. -/
theorem clause_severalColumns_iff (h : ColumnsOf table columns) (hcolumn : column ∈ columns)
    (hpath : IsFieldPath schema path) (relation : Relation) (term : String) :
    ((∃ sql, (clause (Scope.ofColumns columns schema choice .strict)
        ⟨column ++ "." ++ path, relation, term⟩).result = .ok sql) ↔
      ∃ sql, (clause (Scope.ofColumns [column] schema choice .strict)
        ⟨path, relation, term⟩).result = .ok sql) ∧
    ∀ sql, (clause (Scope.ofColumns [column] schema choice .strict)
        ⟨path, relation, term⟩).result = .ok sql →
      ((clause (Scope.ofColumns columns schema choice .strict)
          ⟨column ++ "." ++ path, relation, term⟩).result = .ok sql ↔
        elementModifiers relation.modifiers = []) := by
  rw [clause_of_isFieldIndex (isFieldIndex_several h hcolumn) rfl,
    clause_of_isFieldIndex (isFieldIndex_single hpath) rfl]
  have hsame : SameField (Scope.ofColumns columns schema choice .strict) (column ++ "." ++ path)
      (Scope.ofColumns [column] schema choice .strict) path :=
    sameField_of_columnsOf h hcolumn hpath
  cases hmod : elementModifiers relation.modifiers with
  | nil =>
    refine ⟨⟨?_, ?_⟩, ?_⟩
    · rintro ⟨sql, hsql⟩
      exact ⟨sql, hsame.field_of_plain hmod hsql⟩
    · rintro ⟨sql, hsql⟩
      exact ⟨sql, hsame.symm.field_of_plain hmod hsql⟩
    · intro sql hsql
      exact ⟨fun _ => rfl, fun _ => hsame.symm.field_of_plain hmod hsql⟩
  | cons m ms =>
    obtain ⟨first, hfirst, hfirstQuote⟩ := h.cutLast_column h.headD_mem
    obtain ⟨name, hname, hnameQuote⟩ := h.cutLast_column hcolumn
    refine ⟨⟨?_, ?_⟩, ?_⟩
    · rintro ⟨sql, hsql⟩
      obtain ⟨declared, value, condition, -, hsingle⟩ :=
        hsame.field_of_element hfirst hname hmod hsql
      exact ⟨_, hsingle⟩
    · rintro ⟨sql, hsql⟩
      obtain ⟨declared, value, condition, -, hseveral⟩ :=
        hsame.symm.field_of_element hname hfirst hmod hsql
      exact ⟨_, hseveral⟩
    · intro sql hsql
      obtain ⟨declared, value, condition, rfl, hseveral⟩ :=
        hsame.symm.field_of_element hname hfirst hmod hsql
      simp only [reduceCtorEq, iff_false]
      intro heq
      rw [hseveral, Except.ok.injEq] at heq
      exact jsonPath_ne_of_column hfirstQuote (h.unquoted column hcolumn) hnameQuote
        hpath.unquoted (elementSearch_inj heq)

/-- A table with a field that holds an array. -/
def arraySchema : Schema :=
  { tables := [{ tableName := "t",
                 index := [{ fieldName := "a.b", arraySubfield := some "value",
                             arrayModifiers := ["kind"] }] }] }

theorem columnsOf_two : ColumnsOf "t" ["t.jsonb", "t.extra"] where
  several := by decide
  undotted := by decide
  named := by
    intro column hcolumn
    simp only [List.mem_cons, List.not_mem_nil, or_false] at hcolumn
    rcases hcolumn with rfl | rfl
    · exact ⟨"jsonb", by decide, by decide⟩
    · exact ⟨"extra", by decide, by decide⟩
  unquoted := by decide

theorem isFieldPath_array : IsFieldPath arraySchema "a.b" where
  notKey := by decide
  notAll := by decide
  notChoice := by decide
  unquoted := by decide
  unqualified := by
    intro first rest hcut
    have hab : cutFirst '.' "a.b" = some ("a", "b") := by decide
    rw [hab] at hcut
    cases hcut
    decide

/-- Without a modifier of elements the column in front makes no difference. -/
theorem clause_severalColumns_same_text :
    ∃ sql, (clause (Scope.ofColumns ["t.extra"] arraySchema [] .strict)
        ⟨"a.b", ⟨"<>", [⟨"respectAccents", none, none⟩]⟩, "x"⟩).result = .ok sql ∧
      (clause (Scope.ofColumns ["t.jsonb", "t.extra"] arraySchema [] .strict)
        ⟨"t.extra.a.b", ⟨"<>", [⟨"respectAccents", none, none⟩]⟩, "x"⟩).result = .ok sql := by
  have hsql : (clause (Scope.ofColumns ["t.extra"] arraySchema [] .strict)
      ⟨"a.b", ⟨"<>", [⟨"respectAccents", none, none⟩]⟩, "x"⟩).result = .ok
        ("lower(f_unaccent(t.extra->'a'->>'b')) NOT LIKE lower(f_unaccent('x'))"
          ++ " AND lower(t.extra->'a'->>'b') NOT LIKE lower('x')") :=
    Logged.result_eq_ok_iff.2 (by decide +kernel)
  exact ⟨_, hsql, ((clause_severalColumns_iff columnsOf_two (by decide) isFieldPath_array _ _).2 _
    hsql).2 rfl⟩

/-- A search in the elements of the array looks for it in the first column, at a
path that starts with the name of the other one. -/
theorem clause_severalColumns_other_array :
    (clause (Scope.ofColumns ["t.extra"] arraySchema [] .strict)
        ⟨"a.b", ⟨"==", [⟨"@kind", some "=", some "k"⟩]⟩, "x"⟩).result = .ok
      ("id in (select t.id from (select id as id, jsonb_array_elements(extra->'a'->'b') as c from t)"
        ++ " as t where t.c @> '\x7b\"kind\": \"k\"\x7d' and "
        ++ "lower(f_unaccent(t.c->>'value')) LIKE lower(f_unaccent('x')))") ∧
    (clause (Scope.ofColumns ["t.jsonb", "t.extra"] arraySchema [] .strict)
        ⟨"t.extra.a.b", ⟨"==", [⟨"@kind", some "=", some "k"⟩]⟩, "x"⟩).result = .ok
      ("id in (select t.id from (select id as id, "
        ++ "jsonb_array_elements(jsonb->'t'->'extra'->'a'->'b') as c from t)"
        ++ " as t where t.c @> '\x7b\"kind\": \"k\"\x7d' and "
        ++ "lower(f_unaccent(t.c->>'value')) LIKE lower(f_unaccent('x')))") :=
  ⟨Logged.result_eq_ok_iff.2 (by decide +kernel), Logged.result_eq_ok_iff.2 (by decide +kernel)⟩

end Condition

end CqlToSql
