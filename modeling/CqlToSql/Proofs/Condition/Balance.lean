/-
  CqlToSql.Proofs.Condition.Balance
  ─────────────────────────────────
  **Every condition is balanced.**  If the texts that the configuration puts
  into conditions are balanced where they stand, so is the condition of every
  query that is translated, whatever its search terms, names and modifier
  values are: all literals and all parentheses that it opens are closed in it.

  Column and table names and SQL expressions stand outside literals.  Names of
  fields stand inside literals.
-/
import CqlToSql.Proofs.Condition.Outcome
import CqlToSql.Proofs.Schema.Paths
import CqlToSql.Proofs.Sql.Balance

namespace CqlToSql

open CqlToSql.Text CqlToSql.Sql

/-! ## §1. Balanced configurations. -/

/-- The texts of an index are balanced where they stand in conditions. -/
structure Index.IsBalanced (counted : Bool) (i : Index) : Prop where
  expression : ∀ sql ∈ i.sqlExpression, Balanced counted sql
  compound : ∀ names ∈ i.multiFieldNames, ∀ name ∈ splitAt ',' names, BalancedInside counted name
  /-- The part of an array element that is compared; without a declared one
  the modifier names it. -/
  part : ∀ name ∈ i.arrayModifiers, BalancedInside counted (i.arraySubfield.getD name)

/-- All declared indexes of a table. -/
def Table.allIndexes (t : Table) : List Index :=
  t.fullTextIndex ++ t.ginIndex ++ t.likeIndex ++ t.uniqueIndex ++ t.index

/-- The texts of a table are balanced where they stand in conditions. -/
structure Table.IsBalanced (counted : Bool) (t : Table) : Prop where
  name : Balanced counted t.tableName
  indexes : ∀ i ∈ t.allIndexes, i.IsBalanced counted
  targets : ∀ k ∈ t.foreignKeys, Balanced counted k.targetTable
  keys : ∀ k ∈ t.foreignKeys, BalancedInside counted k.fieldName

/-- The texts of a configuration are balanced where they stand in conditions. -/
structure Scope.IsBalanced (counted : Bool) (s : Scope) : Prop where
  table : Balanced counted s.table
  columns : ∀ column ∈ s.columns, Balanced counted column
  /-- The first column without its table. -/
  bareColumn : ∀ cut ∈ cutLast '.' s.column, Balanced counted cut.2
  tables : ∀ t ∈ s.schema.tables, t.IsBalanced counted

variable {counted : Bool} {scope : Scope} {index : String}

instance (i : Index) : Decidable (i.IsBalanced counted) :=
  decidable_of_iff
    ((∀ sql ∈ i.sqlExpression, Balanced counted sql) ∧
      (∀ names ∈ i.multiFieldNames, ∀ name ∈ splitAt ',' names, BalancedInside counted name) ∧
      ∀ name ∈ i.arrayModifiers, BalancedInside counted (i.arraySubfield.getD name))
    ⟨fun h => ⟨h.1, h.2.1, h.2.2⟩, fun h => ⟨h.expression, h.compound, h.part⟩⟩

instance (t : Table) : Decidable (t.IsBalanced counted) :=
  decidable_of_iff
    (Balanced counted t.tableName ∧ (∀ i ∈ t.allIndexes, i.IsBalanced counted) ∧
      (∀ k ∈ t.foreignKeys, Balanced counted k.targetTable) ∧
      ∀ k ∈ t.foreignKeys, BalancedInside counted k.fieldName)
    ⟨fun h => ⟨h.1, h.2.1, h.2.2.1, h.2.2.2⟩, fun h => ⟨h.name, h.indexes, h.targets, h.keys⟩⟩

instance (s : Scope) : Decidable (s.IsBalanced counted) :=
  decidable_of_iff
    (Balanced counted s.table ∧ (∀ column ∈ s.columns, Balanced counted column) ∧
      (∀ cut ∈ cutLast '.' s.column, Balanced counted cut.2) ∧
      ∀ t ∈ s.schema.tables, t.IsBalanced counted)
    ⟨fun h => ⟨h.1, h.2.1, h.2.2.1, h.2.2.2⟩, fun h => ⟨h.table, h.columns, h.bareColumn, h.tables⟩⟩

/-- A document column of a balanced table is balanced. -/
theorem balanced_documentColumn {table : String} (h : Balanced counted table) :
    Balanced counted (table ++ "." ++ documentColumn) := by
  have hdot : Balanced counted "." := by cases counted <;> decide
  have hdocument : Balanced counted documentColumn := by cases counted <;> decide
  exact (h.append hdot).append hdocument

/-- Moving to another table keeps the configuration balanced. -/
theorem Scope.IsBalanced.forTable (h : scope.IsBalanced counted) {table : String}
    (ht : Balanced counted table) : (scope.forTable table).IsBalanced counted where
  table := ht
  columns := by
    intro column hmem
    rw [List.mem_singleton.1 hmem]
    exact balanced_documentColumn ht
  bareColumn := by
    intro cut hcut
    -- the last dot stands before the name of the document column
    have hlast : cutLast '.' (scope.forTable table).column = some (table, documentColumn) :=
      cutLast_append table (by decide)
    rw [hlast] at hcut
    cases hcut
    show Balanced counted documentColumn
    cases counted <;> decide
  tables := h.tables

/-- The indexes of a field are declared in one of the tables, on the path of the
field. -/
theorem Scope.exists_table_of_mem_indexes {i : Index} (h : i ∈ (scope.indexes index).all) :
    ∃ t ∈ scope.schema.tables, i ∈ t.allIndexes ∧ i.fieldName = (scope.resolve index).2 := by
  unfold Scope.indexes Schema.fieldIndexes at h
  split at h
  · rename_i t ht
    refine ⟨t, Schema.mem_of_table? ht, ?_⟩
    simp only [FieldIndexes.all, Table.fieldIndexes, indexOn, List.mem_filterMap, List.mem_cons,
      List.not_mem_nil, or_false, id_eq] at h
    obtain ⟨found, hkind, hfound⟩ := h
    subst hfound
    simp only [Table.allIndexes, List.mem_append]
    rcases hkind with hkind | hkind | hkind | hkind | hkind <;>
    · have hmem := List.mem_of_find?_eq_some hkind.symm
      have hname := List.find?_some hkind.symm
      exact ⟨by simp [hmem], by simpa using hname⟩
  · simp [FieldIndexes.all] at h

theorem Scope.IsBalanced.of_mem_indexes (h : scope.IsBalanced counted) {i : Index}
    (hi : i ∈ (scope.indexes index).all) : i.IsBalanced counted := by
  obtain ⟨t, ht, hit, -⟩ := scope.exists_table_of_mem_indexes hi
  exact (h.tables t ht).indexes i hit

/-! ## §2. Expressions of fields. -/

/-- What holds of the document columns, and of the empty text, holds of the
column that an index addresses; the path in it holds only characters of the
index. -/
theorem Scope.resolve_cases {P : String → Prop} (hempty : P "")
    (h : ∀ column ∈ scope.columns, P column) (hq : '\'' ∉ index.toList) :
    P (scope.resolve index).1 ∧ '\'' ∉ (scope.resolve index).2.toList := by
  have hfirst : P scope.column := by
    unfold Scope.column
    cases hc : scope.columns with
    | nil => exact hempty
    | cons first rest => exact h first (by simp [hc])
  unfold Scope.resolve
  split
  · unfold selectColumn
    split
    · rename_i selected hfind
      obtain ⟨column, hmem, hafter⟩ := List.exists_of_findSome?_eq_some hfind
      obtain ⟨rest, hrest, rfl⟩ := Option.map_eq_some_iff.1 hafter
      exact ⟨h column hmem, not_mem_of_after hq hrest⟩
    · exact ⟨hfirst, hq⟩
  · exact ⟨hfirst, hq⟩

/-- The text of a field is a path in a column, or the expression that one of its
indexes is made on. -/
theorem Scope.field_eq_ok {f : Field} (hf : scope.field index = .ok f) :
    '\'' ∉ index.toList ∧
    f.json = jsonPath (scope.resolve index).1 (scope.resolve index).2 ∧
    (f.text = textPath (scope.resolve index).1 (scope.resolve index).2 ∨
      ∃ i ∈ (scope.indexes index).all, i.expression (scope.resolve index).1 = some f.text) := by
  unfold Scope.field at hf
  split at hf
  · cases hf
  · rename_i hquote
    cases hf
    refine ⟨by simpa using hquote, ?_⟩
    unfold Field.withExpression
    split
    · rename_i text hexpr
      obtain ⟨i, hi, htext⟩ := Option.bind_eq_some_iff.1 hexpr
      exact ⟨rfl, .inr ⟨i, List.mem_of_find?_eq_some hi, htext⟩⟩
    · exact ⟨rfl, .inl rfl⟩

theorem balanced_compoundTexts {column names : String} (hc : Balanced counted column)
    (h : ∀ name ∈ splitAt ',' names, BalancedInside counted name) :
    ∀ text ∈ compoundTexts column names, Balanced counted text := by
  intro text hmem
  obtain ⟨name, hname, rfl⟩ := List.mem_map.1 hmem
  obtain ⟨raw, hraw, rfl⟩ := List.mem_map.1 (List.mem_filter.1 hname).1
  exact hc.textPath (h raw hraw).trim

theorem Index.IsBalanced.balanced_expression {i : Index} (hi : i.IsBalanced counted)
    {column text : String} (hc : Balanced counted column) (h : i.expression column = some text) :
    Balanced counted text := by
  unfold Index.expression at h
  split at h
  · rename_i sql hsql
    cases h
    exact Balanced.between (k := counted.toNat) (by cases counted <;> decide)
      (hi.expression sql hsql).trim (by cases counted <;> decide)
  · rename_i names _ hnames
    cases h
    have hcomma : Balanced counted " , " := by cases counted <;> decide
    have htexts := hcomma.joinWith (balanced_compoundTexts hc (hi.compound names hnames))
    exact Balanced.between (k := counted.toNat) (by cases counted <;> decide) htexts
      (by cases counted <;> decide)
  · cases h

/-- The expressions of a field are balanced, and its name has no quote. -/
theorem Scope.IsBalanced.field (h : scope.IsBalanced counted) {f : Field}
    (hf : scope.field index = .ok f) :
    Balanced counted f.text ∧ Balanced counted f.json ∧ '\'' ∉ index.toList := by
  obtain ⟨hq, hjson, htext⟩ := Scope.field_eq_ok hf
  obtain ⟨hcolumn, hpath⟩ := Scope.resolve_cases (P := Balanced counted) keeps_nil h.columns hq
  have hinside : BalancedInside counted _ := (IsBody.of_no_quote hpath).balancedInside
  refine ⟨?_, ?_, hq⟩
  · rcases htext with htext | ⟨i, hi, htext⟩
    · rw [htext]
      exact hcolumn.textPath hinside
    · exact (h.of_mem_indexes hi).balanced_expression hcolumn htext
  · rw [hjson]
    exact hcolumn.jsonPath hinside

namespace Condition

variable {c : Clause} {f : CqlToSql.Field} {ix : FieldIndexes} {m : Matching} {sql : String}

/-! ## §3. Comparisons. -/

theorem balanced_wordsText (hf : Balanced counted f.text) {body : String}
    (hb : BalancedInside counted body) : Balanced counted (wordsText f ix body) := by
  have hstart : Leads counted ⟨false, 0⟩ "to_tsvector('simple', " ⟨false, counted.toNat⟩ := by
    cases counted <;> decide
  have hmiddle : Leads counted ⟨false, counted.toNat⟩ ") @@ to_tsquery('simple', "
      ⟨false, counted.toNat⟩ := by
    cases counted <;> decide
  have hend : Leads counted ⟨false, counted.toNat⟩ ")" ⟨false, 0⟩ := by
    cases counted <;> decide
  have hfield := (hf.folded (wordsFolding ix)).at counted.toNat
  have hbody := ((Balanced.literal hb).folded (wordsFolding ix)).at counted.toNat
  exact (((hstart.append hfield).append hmiddle).append hbody).append hend

theorem balanced_patternMatch (negated : Bool) (folding : Folding) {text body : String}
    (ht : Balanced counted text) (hb : Balanced counted body) :
    Balanced counted (patternMatch negated folding text body) := by
  have hlike : Balanced counted (if negated then " NOT LIKE " else " LIKE ") := by
    cases negated <;> cases counted <;> decide
  exact ((ht.folded folding).append hlike).append (hb.folded folding)

theorem isBody_operator {operator : String} (h : Strategy.words operator ∈ strategies) :
    IsBody operator.toList := by
  simp only [strategies, List.mem_cons, Strategy.words.injEq, reduceCtorEq, List.not_mem_nil,
    or_false] at h
  rcases h with rfl | rfl | rfl <;> exact .of_no_quote (by decide)

/-- Each strategy gives a balanced condition from a balanced field. -/
theorem balanced_strategy {strategy : Strategy} (hs : strategy ∈ strategies) {term : String}
    (hf : Balanced counted f.text) (h : (strategy.condition term f m ix).result = .ok sql) :
    Balanced counted sql := by
  have hliteral : Balanced counted (literal (Term.like term)) :=
    Balanced.literal (isBody_like term).balancedInside
  cases strategy with
  | words operator =>
    have hop : IsBody operator.toList := isBody_operator hs
    rcases words_outcome h with ⟨-, rfl⟩ | ⟨-, rfl⟩ | ⟨-, -, operands, ho, rfl⟩
    · cases counted <;> decide
    · have hend : Balanced counted " ~ ''" := by cases counted <;> decide
      exact hf.append hend
    · exact balanced_wordsText hf (hop.joinWith (isBody_lexemes ho)).balancedInside
  | pattern negated =>
    rw [Strategy.condition, result_pattern, Except.ok.injEq] at h
    subst h
    split
    · exact balanced_patternMatch negated _ hf hliteral
    · have hand : Balanced counted " AND " := by cases counted <;> decide
      exact ((balanced_patternMatch negated _ hf hliteral).append hand).append
        (balanced_patternMatch negated _ hf hliteral)
  | typed operator =>
    have hall : ∀ op ∈ typedOperators, Balanced counted op := by cases counted <;> decide
    have hop : Balanced counted operator := hall operator (mem_typedOperators hs)
    rw [Strategy.condition, result_typed, Except.ok.injEq] at h
    subst h
    split
    · have hnumber : Balanced counted (if isNumeric term then term else literal (Term.like term)) := by
        split
        · rename_i hnum
          exact keeps_of_isNumeric hnum
        · exact hliteral
      have hcast : Balanced counted ("(" ++ f.text ++ ")::numeric ") :=
        Balanced.between (k := counted.toNat) (by cases counted <;> decide) hf
          (by cases counted <;> decide)
      exact (hcast.append hop).append hnumber
    · have hblank : Balanced counted " " := by cases counted <;> decide
      exact ((hf.append hblank).append hop).append hliteral

theorem balanced_comparison (hf : Balanced counted f.text)
    (h : (comparison c f ix).result = .ok sql) : Balanced counted sql := by
  obtain ⟨m, strategy, -, hs, hsql⟩ := comparison_outcome h
  exact balanced_strategy (strategy?_mem hs) hf hsql

/-! ## §4. Fields. -/

theorem balanced_keyRange (equal : Bool) {lowest highest : String}
    (hl : isUuid lowest = true) (hh : isUuid highest = true) :
    Balanced counted (keyRange equal lowest highest) := by
  have hlow : Balanced counted (literal lowest) :=
    Balanced.literal (isBody_of_isUuid hl).balancedInside
  have hhigh : Balanced counted (literal highest) :=
    Balanced.literal (isBody_of_isUuid hh).balancedInside
  have hstart : Leads counted ⟨false, 0⟩ ("(" ++ keyColumn ++ if equal then ">=" else "<")
      ⟨false, counted.toNat⟩ := by
    cases equal <;> cases counted <;> decide
  have hmiddle : Balanced counted
      ((if equal then " and " else " or ") ++ keyColumn ++ if equal then "<=" else ">") := by
    cases equal <;> cases counted <;> decide
  have hclose : Leads counted ⟨false, counted.toNat⟩ ")" ⟨false, 0⟩ := by
    cases counted <;> decide
  rw [keyRange_eq]
  exact (((hstart.append (hlow.at _)).append (hmiddle.at _)).append (hhigh.at _)).append hclose

theorem balanced_primaryKey {relation : Relation} {term : String}
    (h : primaryKey relation term = .ok sql) : Balanced counted sql := by
  cases primaryKey_outcome h with
  | constant equal => cases equal <;> cases counted <;> decide
  | invalid equal => cases equal <;> cases counted <;> decide
  | compared hop huuid =>
    rename_i op
    have hstart : Balanced counted (keyColumn ++ op) := by
      simp only [List.mem_cons, List.not_mem_nil, or_false] at hop
      rcases hop with rfl | rfl | rfl | rfl | rfl | rfl <;> cases counted <;> decide
    exact hstart.append (Balanced.literal (isBody_of_isUuid huuid).balancedInside)
  | range equal hl hh => exact balanced_keyRange equal hl hh

theorem balanced_elementSearch {array table condition : String} (name value : String)
    (ha : Balanced counted array) (ht : Balanced counted table)
    (hc : Balanced counted condition) :
    Balanced counted (elementSearch array table name value condition) := by
  -- three parentheses are open around the array, one around the condition
  have hselect : Leads counted ⟨false, 0⟩
      "id in (select t.id from (select id as id, jsonb_array_elements("
      ⟨false, 3 * counted.toNat⟩ := by
    cases counted <;> decide
  have hfrom : Leads counted ⟨false, 3 * counted.toNat⟩ ") as c from "
      ⟨false, 2 * counted.toNat⟩ := by
    cases counted <;> decide
  have hwhere : Leads counted ⟨false, 2 * counted.toNat⟩ ") as t where t.c @> "
      ⟨false, counted.toNat⟩ := by
    cases counted <;> decide
  have hand : Leads counted ⟨false, counted.toNat⟩ " and " ⟨false, counted.toNat⟩ := by
    cases counted <;> decide
  have hend : Leads counted ⟨false, counted.toNat⟩ ")" ⟨false, 0⟩ := by
    cases counted <;> decide
  have hmember : Balanced counted (literal (memberLiteral name value)) :=
    Balanced.literal (isBody_memberLiteral name value).balancedInside
  exact (((((((hselect.append (ha.at _)).append hfrom).append (ht.at _)).append hwhere).append
    (hmember.at _)).append hand).append (hc.at _)).append hend

theorem balanced_element (hs : scope.IsBalanced counted) (hq : '\'' ∉ index.toList)
    {name part value : String} (hp : BalancedInside counted part)
    (h : (element scope index c name part value).result = .ok sql) : Balanced counted sql := by
  obtain ⟨before, column, condition, hcut, hcond, rfl⟩ := element_outcome h
  have harray : Balanced counted (jsonPath column index) :=
    (hs.bareColumn (before, column) hcut).jsonPath (IsBody.of_no_quote hq).balancedInside
  have hc : Balanced counted "t.c" := by cases counted <;> decide
  have htext : Balanced counted (CqlToSql.Field.at "t.c" part).text := hc.textPath hp
  exact balanced_elementSearch name value harray hs.table (balanced_comparison htext hcond)

/-- A modifier of array elements is declared by one of the indexes. -/
theorem elementModifier_declared {name declared part : String}
    (h : ix.elementModifier name = some (declared, part)) :
    ∃ i ∈ ix.all, declared ∈ i.arrayModifiers ∧ part = i.arraySubfield.getD declared := by
  obtain ⟨i, hi, hfound⟩ := List.exists_of_findSome?_eq_some h
  obtain ⟨d, hd, he⟩ := Option.map_eq_some_iff.1 hfound
  cases he
  exact ⟨i, hi, List.mem_of_find?_eq_some hd, rfl⟩

theorem balanced_field (hs : scope.IsBalanced counted)
    (h : (field scope index c).result = .ok sql) : Balanced counted sql := by
  obtain ⟨expressions, he, h⟩ := field_outcome h
  obtain ⟨htext, -, hq⟩ := hs.field he
  rcases h with ⟨name, modifier, declared, part, -, hdecl, h⟩ | ⟨-, -, h⟩ | ⟨-, -, h⟩
  · obtain ⟨i, hi, hmem, rfl⟩ := elementModifier_declared hdecl
    exact balanced_element hs hq ((hs.of_mem_indexes hi).part declared hmem) h
  · exact balanced_primaryKey h
  · exact balanced_comparison htext h

theorem balanced_fields (hs : scope.IsBalanced counted) {indexes conditions : List String}
    (h : (fields scope c indexes).result = .ok conditions) :
    ∀ condition ∈ conditions, Balanced counted condition := by
  induction indexes generalizing conditions with
  | nil =>
    cases h
    simp
  | cons index rest ih =>
    obtain ⟨first, others, hfirst, hothers, rfl⟩ := fields_cons_outcome h
    intro condition hmem
    rcases List.mem_cons.1 hmem with rfl | hmem
    · exact balanced_field hs hfirst
    · exact ih hothers condition hmem

end Condition

/-! ## §5. Joins. -/

/-- The texts of a hop are balanced where they stand. -/
structure Hop.IsBalanced (counted : Bool) (h : Hop) : Prop where
  table : Balanced counted h.table
  target : Balanced counted h.target
  field : BalancedInside counted h.field

theorem Scope.IsBalanced.hop (hs : scope.IsBalanced counted) {h : Hop}
    (hd : scope.schema.Declares h) : h.IsBalanced counted := by
  obtain ⟨t, ht, k, hk, rfl⟩ := hd
  have hbal := hs.tables t ht
  exact ⟨hbal.name, hbal.targets k hk, hbal.keys k hk⟩

theorem Scope.IsBalanced.tableForAlias (hs : scope.IsBalanced counted) {label table : String}
    (h : scope.schema.tableForAlias label = some table) : Balanced counted table := by
  rcases Schema.tableForAlias_declared h with ⟨t, ht, rfl⟩ | ⟨t, ht, k, hk, rfl⟩
  · exact (hs.tables t ht).name
  · exact (hs.tables t ht).targets k hk

/-- A join follows declared foreign keys. -/
theorem Scope.declares_of_joinPath {qualifier : String} {path : JoinPath}
    (h : scope.joinPath qualifier = .ok path) : ∀ hop ∈ path.hops, scope.schema.Declares hop := by
  unfold Scope.joinPath at h
  split at h
  · rename_i hops hto _
    cases h
    exact Schema.declares_of_pathToAlias hto
  · rename_i hops _ hfrom
    cases h
    exact Schema.declares_of_pathFromAlias hfrom
  · cases h
  · cases h

theorem JoinPath.balanced_finalTable {path : JoinPath} {table : String}
    (hp : ∀ hop ∈ path.hops, hop.IsBalanced counted) (h : path.finalTable? = some table) :
    Balanced counted table := by
  cases path with
  | toParent hops =>
    obtain ⟨hop, hlast, rfl⟩ := Option.map_eq_some_iff.1 h
    exact (hp hop (List.mem_of_getLast? hlast)).target
  | toChild hops =>
    obtain ⟨hop, hlast, rfl⟩ := Option.map_eq_some_iff.1 h
    exact (hp hop (List.mem_of_getLast? hlast)).table

theorem Hop.IsBalanced.keyText {h : Hop} (hh : h.IsBalanced counted) :
    Balanced counted h.keyText :=
  (balanced_documentColumn hh.table).textPath hh.field

theorem Hop.IsBalanced.intoParent {h : Hop} (hh : h.IsBalanced counted) {inner : String}
    (hi : Balanced counted inner) : Balanced counted (h.intoParent inner) := by
  have hkey : Balanced counted keyColumn := by cases counted <;> decide
  have hstart : Leads counted ⟨false, 0⟩ "(" ⟨false, counted.toNat⟩ := by
    cases counted <;> decide
  have hselect : Leads counted ⟨false, counted.toNat⟩ ")::UUID IN  ( SELECT "
      ⟨false, counted.toNat⟩ := by
    cases counted <;> decide
  have hfrom : Balanced counted " from " := by cases counted <;> decide
  have hwhere : Balanced counted " WHERE " := by cases counted <;> decide
  have hend : Leads counted ⟨false, counted.toNat⟩ ")" ⟨false, 0⟩ := by
    cases counted <;> decide
  exact ((((((((hstart.append (hh.keyText.at _)).append hselect).append (hkey.at _)).append
    (hfrom.at _)).append (hh.target.at _)).append (hwhere.at _)).append (hi.at _)).append hend)

theorem Hop.IsBalanced.intoChild {h : Hop} (hh : h.IsBalanced counted) {inner : String}
    (hi : Balanced counted inner) : Balanced counted (h.intoChild inner) := by
  have hdot : Balanced counted "." := by cases counted <;> decide
  have hkey : Balanced counted keyColumn := by cases counted <;> decide
  have hselect : Leads counted ⟨false, 0⟩ " IN  ( SELECT ("
      ⟨false, 2 * counted.toNat⟩ := by
    cases counted <;> decide
  have hfrom : Leads counted ⟨false, 2 * counted.toNat⟩ ")::UUID from "
      ⟨false, counted.toNat⟩ := by
    cases counted <;> decide
  have hwhere : Balanced counted " WHERE " := by cases counted <;> decide
  have hend : Leads counted ⟨false, counted.toNat⟩ ")" ⟨false, 0⟩ := by
    cases counted <;> decide
  have hid : Balanced counted (h.target ++ "." ++ keyColumn) := (hh.target.append hdot).append hkey
  exact ((((((Leads.append hid hselect).append (hh.keyText.at _)).append hfrom).append
    (hh.table.at _)).append (hwhere.at _)).append (hi.at _)).append hend

/-- A join along balanced hops keeps a condition balanced. -/
theorem JoinPath.balanced_nest {path : JoinPath} {inner : String}
    (hp : ∀ hop ∈ path.hops, hop.IsBalanced counted) (hi : Balanced counted inner) :
    Balanced counted (path.nest inner) := by
  cases path with
  | toParent hops =>
    exact List.foldrRecOn hops Hop.intoParent hi fun _ hrest hop hmem =>
      (hp hop hmem).intoParent hrest
  | toChild hops =>
    exact List.foldrRecOn hops Hop.intoChild hi fun _ hrest hop hmem =>
      (hp hop hmem).intoChild hrest

namespace Condition

variable {c : Clause} {sql : String}

theorem balancedInside_of_isPlainPath {path : String} (h : Scope.isPlainPath path = true) :
    BalancedInside counted path := by
  apply IsBody.balancedInside
  apply IsBody.of_no_quote
  intro hq
  obtain ⟨part, hpart, hx⟩ := exists_mem_splitChars hq (show '\'' ≠ '.' by decide)
  rw [Scope.isPlainPath, List.all_eq_true] at h
  -- a quote would stand in one of the parts, and these are identifiers
  have hident := h (String.ofList part) (List.mem_map.2 ⟨part, hpart, rfl⟩)
  have hno : '\'' ∉ (String.ofList part).toList := not_mem_of_isIdentifier (by decide) hident
  rw [String.toList_ofList] at hno
  exact hno hx

theorem balanced_valueJoin (hs : scope.IsBalanced counted) {qualifier path : String}
    (h : scope.valueJoin qualifier path c = .ok sql) : Balanced counted sql := by
  obtain ⟨table, expressions, hplain, htable, hfield, h⟩ := valueJoin_outcome h
  have htext := (hs.field hfield).1
  have hname := hs.tableForAlias htable
  have hother := (balanced_documentColumn hname).textPath (balancedInside_of_isPlainPath hplain)
  have hfrom : Balanced counted " from " := by cases counted <;> decide
  rcases h with rfl | rfl
  · have hselect : Leads counted ⟨false, 0⟩ " IN  ( SELECT " ⟨false, counted.toNat⟩ := by
      cases counted <;> decide
    have hend : Leads counted ⟨false, counted.toNat⟩ ")" ⟨false, 0⟩ := by
      cases counted <;> decide
    exact ((((Leads.append htext hselect).append (hother.at _)).append (hfrom.at _)).append
      (hname.at _)).append hend
  · have hselect : Leads counted ⟨false, 0⟩ " NOT IN  ( SELECT " ⟨false, counted.toNat⟩ := by
      cases counted <;> decide
    have hwhere : Balanced counted " WHERE " := by cases counted <;> decide
    have hend : Leads counted ⟨false, counted.toNat⟩ " IS NOT NULL)" ⟨false, 0⟩ := by
      cases counted <;> decide
    exact ((((((Leads.append htext hselect).append (hother.at _)).append (hfrom.at _)).append
      (hname.at _)).append (hwhere.at _)).append (hother.at _)).append hend

/-! ## §6. Clauses. -/

/-- The condition of every clause is balanced.  A join moves to another table
with a shorter index. -/
theorem balanced_clause {scope : Scope} {c : Clause} {sql : String}
    (hs : scope.IsBalanced counted) (h : (clause scope c).result = .ok sql) :
    Balanced counted sql := by
  rcases clause_outcome h with rfl | ⟨qualifier, rest, path, table, inner, hq, hp, ht, hi, rfl⟩ |
    ⟨qualifier, path, -, h⟩ | h | h
  · cases counted <;> decide
  · have hhops : ∀ hop ∈ path.hops, hop.IsBalanced counted := fun hop hmem =>
      hs.hop (scope.declares_of_joinPath hp hop hmem)
    -- the index gets shorter from table to table
    have hlen := Scope.qualifier?_length hq
    have hinner := balanced_clause (hs.forTable (JoinPath.balanced_finalTable hhops ht)) hi
    exact JoinPath.balanced_nest hhops hinner
  · exact balanced_valueJoin hs h
  · obtain ⟨conditions, -, hconditions, rfl⟩ := anyField_outcome h
    have hor : Balanced counted " OR " := by cases counted <;> decide
    exact hor.joinWith (balanced_fields hs hconditions)
  · exact balanced_field hs h
termination_by c.index.toList.length

/-! ## §7. Trees. -/

theorem balanced_sortKey (hs : scope.IsBalanced counted) {key : SortKey}
    (h : sortKey scope key = .ok sql) : Balanced counted sql := by
  obtain ⟨direction, hmem, h⟩ := sortKey_outcome h
  have hdirection : Balanced counted direction := by
    simp only [List.mem_cons, List.not_mem_nil, or_false] at hmem
    rcases hmem with rfl | rfl <;> cases counted <;> decide
  have hkey : Balanced counted keyColumn := by cases counted <;> decide
  rcases h with rfl | ⟨f, hf, rfl | rfl⟩
  · exact hkey.append hdirection
  · exact (hs.field hf).2.1.append hdirection
  · exact (hs.field hf).1.unaccented.lowered.append hdirection

theorem balanced_sortKeys (hs : scope.IsBalanced counted) {keys : List SortKey}
    {orders : List String} (h : sortKeys scope keys = .ok orders) :
    ∀ order ∈ orders, Balanced counted order := by
  induction keys generalizing orders with
  | nil =>
    cases h
    simp
  | cons key keys ih =>
    obtain ⟨first, others, hfirst, hothers, rfl⟩ := sortKeys_cons_outcome h
    intro order hmem
    rcases List.mem_cons.1 hmem with rfl | hmem
    · exact balanced_sortKey hs hfirst
    · exact ih hothers order hmem

theorem balanced_order (hs : scope.IsBalanced counted) {keys : List SortKey}
    (h : order scope keys = .ok sql) : Balanced counted sql := by
  obtain ⟨orders, horders, rfl⟩ := order_outcome h
  have hcomma : Balanced counted ", " := by cases counted <;> decide
  exact hcomma.joinWith (balanced_sortKeys hs horders)

theorem balanced_combine (op : Operator) {left right : String} (hl : Balanced counted left)
    (hr : Balanced counted right) : Balanced counted (combine op left right) := by
  have hopen : Leads counted ⟨false, 0⟩ "(" ⟨false, counted.toNat⟩ := by
    cases counted <;> decide
  have hclose : Leads counted ⟨false, counted.toNat⟩ ")" ⟨false, 0⟩ := by
    cases counted <;> decide
  cases op with
  | and =>
    have hand : Leads counted ⟨false, counted.toNat⟩ ") AND (" ⟨false, counted.toNat⟩ := by
      cases counted <;> decide
    exact (((hopen.append (hl.at _)).append hand).append (hr.at _)).append hclose
  | or =>
    have hor : Leads counted ⟨false, counted.toNat⟩ ") OR (" ⟨false, counted.toNat⟩ := by
      cases counted <;> decide
    exact (((hopen.append (hl.at _)).append hor).append (hr.at _)).append hclose
  | not =>
    have hnot : Leads counted ⟨false, counted.toNat⟩ ") AND (("
        ⟨false, 2 * counted.toNat⟩ := by
      cases counted <;> decide
    have hend : Leads counted ⟨false, 2 * counted.toNat⟩ ") IS NOT TRUE)"
        ⟨false, 0⟩ := by
      cases counted <;> decide
    exact (((hopen.append (hl.at _)).append hnot).append (hr.at _)).append hend

/-- The condition of every query is balanced, sort keys included. -/
theorem balanced_query (hs : scope.IsBalanced counted) {q : Query}
    (h : (query scope q).result = .ok sql) : Balanced counted sql := by
  induction q generalizing sql with
  | clause c =>
    rw [query_clause] at h
    exact balanced_clause hs h
  | boolean op left right ihl ihr =>
    obtain ⟨l, hl, ⟨-, -, rfl⟩ | ⟨-, r, hr, rfl⟩⟩ := query_boolean_outcome h
    · exact ihl hl
    · exact balanced_combine op (ihl hl) (ihr hr)
  | sorted q keys ih =>
    obtain ⟨condition, body, hc, hb, rfl⟩ := query_sorted_outcome h
    have horder : Balanced counted " ORDER BY " := by cases counted <;> decide
    exact ((ih hc).append horder).append (balanced_order hs hb)

/-- So are the two texts of a selection. -/
theorem balanced_selection (hs : scope.IsBalanced counted) {q : Query} {s : Selection}
    (h : (selection scope q).result = .ok s) :
    Balanced counted s.condition ∧ Balanced counted s.order := by
  unfold selection at h
  split at h
  · obtain ⟨condition, hc, h⟩ := Logged.result_bind_eq_ok_iff.1 h
    obtain ⟨body, hb, h⟩ := Logged.result_bind_eq_ok_iff.1 h
    cases h
    exact ⟨balanced_query hs hc, balanced_order hs hb⟩
  · obtain ⟨condition, hc, h⟩ := Logged.result_bind_eq_ok_iff.1 h
    cases h
    exact ⟨balanced_query hs hc, keeps_nil⟩

end Condition

end CqlToSql
