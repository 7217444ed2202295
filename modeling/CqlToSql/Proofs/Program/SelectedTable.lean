/-
  CqlToSql.Proofs.Program.SelectedTable
  ─────────────────────────────────────
  **The table that the program selects from.**  The table and the field of the
  settings are joined to one document column, and the table of the statement is
  cut out of this column again:

      table, field  ↦  table.field  ↦  select * from … where … [order by …]

  The cut takes the part between the last two dots.

  Main statement: for every table that is not blank, every field and every query
  that is compiled, the statement has the condition and the order of the query
  on the column `table.field`.  It selects from the table of the settings just
  when this table has no dot, and the field has none either or names the table
  once more (`run_selects_from_iff`).
-/
import CqlToSql.Program.Run
import CqlToSql.Proofs.Condition.LiteralText
import CqlToSql.Proofs.Condition.Selection
import CqlToSql.Proofs.Text.Words

namespace CqlToSql

open CqlToSql.Text

/-! ## §1. The table of a column. -/

/-- The table is the last part but one. -/
theorem tableOfColumn_of_parts {column table final : String} {front : List String}
    (h : splitAt '.' column = front ++ [table, final]) : tableOfColumn column = table := by
  rw [tableOfColumn, h, List.reverse_append]
  rfl

/-- A text with a dot has at least two parts. -/
theorem exists_splitAt_eq_two {s : String} (h : '.' ∈ s.toList) :
    ∃ front table final, splitAt '.' s = front ++ [table, final] := by
  obtain ⟨front, final, hparts⟩ := exists_splitAt_eq_concat '.' s
  have hfront : front ≠ [] := by
    rintro rfl
    have hfinal : '.' ∉ final.toList := sep_not_mem_of_mem_splitAt (s := s) (by simp [hparts])
    have hjoin : joinWith "." [final] = s := by
      rw [← joinWith_splitAt s, hparts]
      rfl
    rw [← hjoin] at h
    exact hfinal h
  obtain ⟨before, table, rfl⟩ : ∃ before table, front = before ++ [table] :=
    ⟨_, _, (List.dropLast_concat_getLast hfront).symm⟩
  exact ⟨before, table, final, by rw [hparts, List.append_assoc]; rfl⟩

/-- Joined to a field, a table is found again just when it has no dot and the
field does not name another one. -/
theorem tableOfColumn_join_eq_iff (table field : String) :
    tableOfColumn (table ++ "." ++ field) = table ↔
      '.' ∉ table.toList ∧ ('.' ∈ field.toList → tableOfColumn field = table) := by
  by_cases hfield : '.' ∈ field.toList
  · -- the table is cut out of the field
    obtain ⟨front, inner, final, hparts⟩ := exists_splitAt_eq_two hfield
    have hjoined : splitAt '.' (table ++ "." ++ field)
        = (splitAt '.' table ++ front) ++ [inner, final] := by
      rw [splitAt_append, hparts, List.append_assoc]
    have hdot : '.' ∉ inner.toList := sep_not_mem_of_mem_splitAt (s := field) (by simp [hparts])
    rw [tableOfColumn_of_parts hjoined, tableOfColumn_of_parts hparts]
    constructor
    · rintro rfl
      exact ⟨hdot, fun _ => rfl⟩
    · intro h
      exact h.2 hfield
  · -- the table is cut at its own last dot
    obtain ⟨front, last, hparts⟩ := exists_splitAt_eq_concat '.' table
    have hjoined : splitAt '.' (table ++ "." ++ field) = front ++ [last, field] := by
      rw [splitAt_append, splitAt_of_not_mem hfield, hparts, List.append_assoc]
      rfl
    rw [tableOfColumn_of_parts hjoined]
    constructor
    · rintro rfl
      exact ⟨sep_not_mem_of_mem_splitAt (s := last) (by simp [hparts]), fun h => absurd h hfield⟩
    · rintro ⟨htable, -⟩
      rw [splitAt_of_not_mem htable] at hparts
      simpa using congrArg List.getLast? hparts.symm

/-! ## §2. Translators of configurations. -/

namespace Translator

variable {config : Configuration} {read : String → Except ReadFault String} {t : Translator}

/-- A translator has the trimmed columns of its configuration. -/
theorem trimColumns_of_ofConfiguration (h : (ofConfiguration config read).result = .ok t) :
    trimColumns config.documentColumns = .ok t.columns := by
  unfold ofConfiguration at h
  obtain ⟨columns, hcolumns, h⟩ := Logged.result_bind_eq_ok_iff.1 h
  obtain ⟨choice, hchoice, h⟩ := Logged.result_bind_eq_ok_iff.1 h
  -- neither the server choice nor the schema changes the columns
  have hkept : t.columns = choice.columns := by
    dsimp only at h
    split at h
    · obtain ⟨schema, -, h⟩ := Logged.result_bind_eq_ok_iff.1 h
      cases h
      rfl
    · rw [Logged.result_write_bind] at h
      cases h
      rfl
  obtain ⟨_, -, rfl⟩ := map_eq_ok_iff.1 hchoice
  unfold ofColumns at hcolumns
  rw [Logged.result_ofExcept] at hcolumns
  split at hcolumns
  · cases hcolumns
  · obtain ⟨trimmed, htrim, rfl⟩ := map_eq_ok_iff.1 hcolumns
    rw [htrim, hkept]

/-- Of the files only the one with the schema is read. -/
theorem ofConfiguration_congr {read' : String → Except ReadFault String}
    (h : ∀ path ∈ config.schemaPath, read path = read' path) :
    ofConfiguration config read = ofConfiguration config read' := by
  unfold ofConfiguration
  cases hpath : config.schemaPath with
  | none => rfl
  | some path =>
    dsimp only
    rw [h path hpath]

end Translator

/-! ## §3. Statements. -/

/-- The sort keys of a query. -/
def Query.sortKeys : Query → List SortKey
  | .sorted _ keys => keys
  | _ => []

/-- There is an order just when there are sort keys. -/
theorem Condition.order_eq_empty_iff {scope : Scope} {q : Query} {s : Selection}
    (h : (selection scope q).result = .ok s) : s.order = "" ↔ q.sortKeys = [] := by
  have hunsorted : ∀ {x : Logged String}, (x >>= fun condition =>
      pure { condition, order := "" }).result = .ok s → s.order = "" := by
    intro x hx
    obtain ⟨condition, -, hs⟩ := Logged.result_bind_eq_ok_iff.1 hx
    cases hs
    rfl
  cases q with
  | clause c => exact ⟨fun _ => rfl, fun _ => hunsorted h⟩
  | boolean op left right => exact ⟨fun _ => rfl, fun _ => hunsorted h⟩
  | sorted q keys =>
    unfold selection at h
    obtain ⟨condition, -, h⟩ := Logged.result_bind_eq_ok_iff.1 h
    obtain ⟨body, hbody, h⟩ := Logged.result_bind_eq_ok_iff.1 h
    cases h
    show body = "" ↔ keys = []
    constructor
    · intro hempty
      by_contra hkeys
      exact order_ne_empty hkeys hbody hempty
    · rintro rfl
      cases hbody
      rfl

namespace Program

open CqlToSql.Storage

/-- The statement that selects from a table what a query asks for. -/
def statementFrom (table : String) (q : Query) (s : Selection) : String :=
  "select * from " ++ table ++ " where " ++ s.condition
    ++ (if q.sortKeys = [] then "" else " order by " ++ s.order)

theorem statement_eq_statementFrom {t : Translator} {q : Query} {s : Selection}
    (h : (t.selection q).result = .ok s) (table : String) :
    statement table s = statementFrom table q s := by
  rw [Translator.result_selection] at h
  unfold statement statementFrom
  simp only [Condition.order_eq_empty_iff h]

theorem statementFrom_inj {a b : String} {q : Query} {s : Selection} :
    statementFrom a q s = statementFrom b q s ↔ a = b := by
  unfold statementFrom
  simp

/-! ## §4. Runs of the program. -/

variable {directory query : String} {environment : List (String × String)}
  {commandLine : List String} {arguments : Arguments} {settings : Settings}
  {config : Configuration} {read : String → Except ReadFault String} {t : Translator} {q : Query}
  {s : Selection}

/-- The configuration has one column, made of the table and the field. -/
theorem exists_configuration {table : String} (htable : settings.table = some table)
    (hblank : isAllBlank table = false) (directory : String) :
    ∃ config, configuration directory settings = .ok config ∧
      config.documentColumns = [trim table ++ "." ++ trim settings.field] := by
  unfold configuration
  rw [htable]
  dsimp only
  rw [hblank]
  exact ⟨_, rfl, rfl⟩

/-- The translator keeps the column as it is. -/
theorem columns_of_configuration {table field : String} (hblank : isAllBlank table = false)
    (hcolumns : config.documentColumns = [trim table ++ "." ++ trim field])
    (h : (Translator.ofConfiguration config read).result = .ok t) :
    t.columns = [trim table ++ "." ++ trim field] := by
  have hne : trim table ++ "." ++ trim field ≠ "" := by simp [String.append_eq_empty_iff]
  have htrim := Translator.trimColumns_of_ofConfiguration h
  rw [hcolumns, Translator.trimColumns, trim_join hblank, if_neg hne] at htrim
  exact (Except.ok.inj htrim).symm

/-- A query that is compiled is printed as a statement. -/
theorem compile_eq_printed (ht : (Translator.ofConfiguration config read).result = .ok t)
    (hs : (t.selectionOf query).result = .ok s) :
    compile config read query = .printed (statement t.tableName s) := by
  unfold compile
  rw [ht]
  dsimp only
  rw [hs]

theorem compile_congr {read' : String → Except ReadFault String}
    (h : ∀ path ∈ config.schemaPath, read path = read' path) (query : String) :
    compile config read query = compile config read' query := by
  unfold compile
  rw [Translator.ofConfiguration_congr h]

theorem compileWith_eq (probe : String → Entry) (config : Configuration) (query : String) :
    Id.run (compileWith probe config query)
      = compile config (fun path => (probe path).read) query := by
  unfold compileWith
  cases hpath : config.schemaPath with
  | none =>
    show compile config (fun _ => .error .missing) query = _
    exact compile_congr (by simp [hpath]) query
  | some path =>
    show compile config (fun _ => (probe path).read) query = _
    exact compile_congr (by simp [hpath]) query

/-- A run compiles its query with the configuration of its settings. -/
theorem run_of_settings {probe : String → Entry} (hrequest : request commandLine = .run arguments)
    (hsettings : Id.run (loadSettings probe directory environment arguments) = .ok settings)
    (hconfig : configuration directory settings = .ok config) :
    Id.run (run probe directory environment commandLine)
      = compile config (fun path => (probe path).read) (arguments.query.getD "") := by
  unfold run
  rw [hrequest]
  dsimp only
  unfold runWith
  rw [Id.run_bind, hsettings]
  dsimp only
  rw [hconfig]
  exact compileWith_eq probe config _

/-- The statement of a run is that of its query on the column of its settings. -/
theorem run_eq_printed {probe : String → Entry} {column : String}
    (hrequest : request commandLine = .run arguments)
    (hsettings : Id.run (loadSettings probe directory environment arguments) = .ok settings)
    (hconfig : configuration directory settings = .ok config)
    (ht : (Translator.ofConfiguration config fun path => (probe path).read).result = .ok t)
    (hcolumns : t.columns = [column])
    (hparse : Query.parse (arguments.query.getD "") = .ok q) (hs : (t.selection q).result = .ok s) :
    Id.run (run probe directory environment commandLine)
      = .printed (statementFrom (tableOfColumn column) q s) := by
  have hselection : (t.selectionOf (arguments.query.getD "")).result = .ok s := by
    rw [Translator.selectionOf, Translator.result_parse_bind, hparse]
    exact hs
  have hname : t.tableName = tableOfColumn column := by
    rw [Translator.tableName, hcolumns]
    rfl
  rw [run_of_settings hrequest hsettings hconfig, compile_eq_printed ht hselection, hname,
    statement_eq_statementFrom hs]

/-! ## §5. The selected table. -/

/-- **The program selects from the table that it was given** just when the table
is found again in the column.  Condition and order are always those of the query
on this column. -/
theorem run_selects_from_iff {probe : String → Entry} {table : String}
    (hrequest : request commandLine = .run arguments)
    (hsettings : Id.run (loadSettings probe directory environment arguments) = .ok settings)
    (htable : settings.table = some table) (hblank : isAllBlank table = false) :
    ∃ config, configuration directory settings = .ok config ∧
      ∀ t q s, (Translator.ofConfiguration config fun path => (probe path).read).result = .ok t →
        Query.parse (arguments.query.getD "") = .ok q → (t.selection q).result = .ok s →
        t.columns = [trim table ++ "." ++ trim settings.field] ∧
        Id.run (run probe directory environment commandLine) = .printed
          (statementFrom (tableOfColumn (trim table ++ "." ++ trim settings.field)) q s) ∧
        (Id.run (run probe directory environment commandLine)
            = .printed (statementFrom (trim table) q s) ↔
          '.' ∉ (trim table).toList ∧
            ('.' ∈ (trim settings.field).toList →
              tableOfColumn (trim settings.field) = trim table)) := by
  obtain ⟨config, hconfig, hdocument⟩ := exists_configuration htable hblank directory
  refine ⟨config, hconfig, fun t q s ht hparse hs => ?_⟩
  have hcolumns := columns_of_configuration hblank hdocument ht
  have hrun := run_eq_printed hrequest hsettings hconfig ht hcolumns hparse hs
  refine ⟨hcolumns, hrun, ?_⟩
  rw [hrun, Result.printed.injEq, statementFrom_inj, tableOfColumn_join_eq_iff]

/-- A table and a field with blanks around them. -/
theorem run_selects_from_trimmed_table :
    let commandLine := ["-t", " users ", "-f", " doc ", "name == \"x\""]
    let arguments : Arguments :=
      { table := some " users ", field := some " doc ", query := some "name == \"x\"" }
    let settings : Settings := { table := some " users ", field := " doc " }
    request commandLine = .run arguments ∧
      Id.run (loadSettings (fun _ => Entry.missing) "/work" [] arguments) = .ok settings ∧
      isAllBlank " users " = false ∧
      Id.run (run (fun _ => Entry.missing) "/work" [] commandLine) = .printed
        ("select * from users where "
          ++ "lower(f_unaccent(users.doc->>'name')) LIKE lower(f_unaccent('x'))") := by
  intro commandLine arguments settings
  have hrequest : request commandLine = .run arguments := by decide
  have hsettings : Id.run (loadSettings (fun _ => Entry.missing) "/work" [] arguments)
      = .ok settings := rfl
  have hblank : isAllBlank " users " = false := by decide
  have hword : IsWord "name" := by decide
  have hparse := Clause.parse_text (isPrintable_exactClause hword "x")
  rw [show (exactClause "name" "x").render = arguments.query.getD "" by decide +kernel] at hparse
  have hselection : (Translator.selection { columns := ["users.doc"] }
      (.clause (exactClause "name" "x"))).result = .ok
        ⟨"lower(f_unaccent(users.doc->>'name')) LIKE lower(f_unaccent('x'))", ""⟩ :=
    Logged.result_eq_ok_iff.2 (by decide +kernel)
  refine ⟨hrequest, hsettings, hblank, ?_⟩
  obtain ⟨config, hconfig, hrun⟩ := run_selects_from_iff hrequest hsettings rfl hblank
  cases hconfig
  obtain ⟨-, -, hprinted⟩ := hrun { columns := ["users.doc"] } _ _
    (Logged.result_eq_ok_iff.2 (by decide +kernel)) hparse hselection
  rw [hprinted.2 ⟨by decide, by decide⟩, Result.printed.injEq]
  decide +kernel

/-- A part of a field with a dot is taken for the table. -/
theorem run_selects_from_part_of_field :
    let commandLine := ["-t", "users", "-f", "data.jsonb", "name == \"x\""]
    let condition := "lower(f_unaccent(users.data.jsonb->>'name')) LIKE lower(f_unaccent('x'))"
    Id.run (run (fun _ => Entry.missing) "/work" [] commandLine)
        = .printed ("select * from data where " ++ condition) ∧
      Id.run (run (fun _ => Entry.missing) "/work" [] commandLine)
        ≠ .printed ("select * from users where " ++ condition) := by
  intro commandLine condition
  have hrequest : request commandLine = .run
      { table := some "users", field := some "data.jsonb", query := some "name == \"x\"" } := by
    decide
  have hword : IsWord "name" := by decide
  have hparse := Clause.parse_text (isPrintable_exactClause hword "x")
  rw [show (exactClause "name" "x").render = "name == \"x\"" by decide +kernel] at hparse
  have hselection : (Translator.selection { columns := ["users.data.jsonb"] }
      (.clause (exactClause "name" "x"))).result = .ok ⟨condition, ""⟩ :=
    Logged.result_eq_ok_iff.2 (by decide +kernel)
  rw [run_eq_printed hrequest rfl rfl rfl rfl hparse hselection]
  exact ⟨by decide +kernel, by decide +kernel⟩

end Program

end CqlToSql
