/-
  CqlToSql.Proofs.Condition.ValueJoin
  ───────────────────────────────────
  **The table that a value join reads.**  A name is resolved twice when a field
  is compared with the values of another table:

      joinPath       — the chain of keys to the table, which has to exist
      tableForAlias  — the table that the values are selected from

  The chain ends at a table that the name addresses, and the values come from
  the first one that it addresses, in the order in which the schema declares
  them, a table of that name before all aliases.

  Main statement: the two are the same table just when the chain ends at the
  first one, and so they are if the name addresses one table alone.  A name that
  several keys share can lead to one table and select from another.
-/
import CqlToSql.Proofs.Condition.Outcome
import CqlToSql.Proofs.Schema.Paths

namespace CqlToSql

/-! ## §1. The tables that a name addresses. -/

namespace Schema

variable {s : Schema} {label table : String}

/-- The tables that a key addresses by that name. -/
def addressedBy (label : String) (key : Table × ForeignKey) : List String :=
  (if key.2.targetAlias = label then [key.2.targetTable] else []) ++
    if key.2.sourceAlias key.1 = label then [key.1.tableName] else []

/-- All tables that a name addresses, a table of that name first and then one
key after the other. -/
def addressed (s : Schema) (label : String) : List String :=
  ((s.table? label).map Table.tableName).toList ++ s.keys.flatMap (addressedBy label)

/-- A name stands for the first table that it addresses. -/
theorem tableForAlias_eq_head? (s : Schema) (label : String) :
    s.tableForAlias label = (s.addressed label).head? := by
  unfold tableForAlias addressed
  rw [List.head?_append, List.head?_flatMap]
  cases s.table? label with
  | some t => rfl
  | none =>
    -- of the two ends of a key the parent is looked at first
    have hkey : ∀ key : Table × ForeignKey, (addressedBy label key).head? =
        if key.2.targetAlias = label then some key.2.targetTable
        else if key.2.sourceAlias key.1 = label then some key.1.tableName else none := by
      intro key
      unfold addressedBy
      split
      · rfl
      · split <;> rfl
    simp only [hkey]
    rfl

theorem mem_addressed_of_targetAlias {t : Table} {k : ForeignKey} (hkey : (t, k) ∈ s.keys)
    (halias : k.targetAlias = label) : k.targetTable ∈ s.addressed label := by
  refine List.mem_append_right _ (List.mem_flatMap.2 ⟨(t, k), hkey, ?_⟩)
  simp [addressedBy, halias]

theorem mem_addressed_of_sourceAlias {t : Table} {k : ForeignKey} (hkey : (t, k) ∈ s.keys)
    (halias : k.sourceAlias t = label) : t.tableName ∈ s.addressed label := by
  refine List.mem_append_right _ (List.mem_flatMap.2 ⟨(t, k), hkey, ?_⟩)
  simp [addressedBy, halias]

/-- The last key of a path to a parent gives its target that name. -/
theorem last_of_pathToAlias {source : String} {hops : List Hop}
    (h : s.pathToAlias source label = some hops) :
    ∃ t k, (t, k) ∈ s.keys ∧ k.targetAlias = label ∧ hops.getLast? = some (k.hop t) := by
  obtain ⟨chain, hchain, rfl⟩ := exists_chain_of_pathToAlias h
  obtain ⟨hfollows, ⟨t, k⟩, hlast, halias⟩ := leadsToAlias_iff.2 hchain
  refine ⟨t, k, hfollows.subset_keys (List.mem_of_getLast? hlast), halias, ?_⟩
  rw [hopsOf, List.getLast?_map, hlast]
  rfl

/-- The last key of a path to a child gives its own table that name. -/
theorem last_of_pathFromAlias {target : String} {hops : List Hop}
    (h : s.pathFromAlias label target = some hops) :
    ∃ t k, (t, k) ∈ s.keys ∧ k.sourceAlias t = label ∧ hops.getLast? = some (k.hop t) := by
  obtain ⟨chain, hchain, rfl⟩ := exists_chain_of_pathFromAlias h
  exact (leadsFromAlias_iff.2 hchain).ends.2

end Schema

/-! ## §2. The chain and the table. -/

namespace Scope

variable {scope : Scope} {qualifier path sql : String} {c : Clause} {route : JoinPath}

/-- The chain of a join ends at a table that its name addresses. -/
theorem exists_finalTable_of_joinPath (h : scope.joinPath qualifier = .ok route) :
    ∃ final, route.finalTable? = some final ∧ final ∈ scope.schema.addressed qualifier := by
  cases route with
  | toParent hops =>
    obtain ⟨t, k, hkey, halias, hlast⟩ :=
      Schema.last_of_pathToAlias (joinPath_eq_toParent_iff.1 h).1
    refine ⟨k.targetTable, ?_, Schema.mem_addressed_of_targetAlias hkey halias⟩
    rw [JoinPath.finalTable?, hlast]
    rfl
  | toChild hops =>
    obtain ⟨t, k, hkey, halias, hlast⟩ :=
      Schema.last_of_pathFromAlias (joinPath_eq_toChild_iff.1 h).2
    refine ⟨t.tableName, ?_, Schema.mem_addressed_of_sourceAlias hkey halias⟩
    rw [JoinPath.finalTable?, hlast]
    rfl

theorem exists_joinPath_of_valueJoin (h : scope.valueJoin qualifier path c = .ok sql) :
    ∃ route, scope.joinPath qualifier = .ok route := by
  unfold valueJoin at h
  split at h
  · cases h
  · split at h
    · cases h
    · rename_i route hroute
      exact ⟨route, hroute⟩

/-- The values of the field `path` of a table, as they are selected. -/
def valuesOf (table path : String) : String :=
  textPath (table ++ "." ++ documentColumn) path ++ " from " ++ table

/-- **A value join reads the first table that its name addresses.**  The chain of
keys that was looked for ends at a table that the name addresses too, and so at
that very table if the name addresses no other. -/
theorem valueJoin_selects_first_addressed (h : scope.valueJoin qualifier path c = .ok sql) :
    ∃ route final table f, scope.joinPath qualifier = .ok route ∧
      route.finalTable? = some final ∧ final ∈ scope.schema.addressed qualifier ∧
      scope.field c.index = .ok f ∧
      (sql = f.text ++ " IN  ( SELECT " ++ valuesOf table path ++ ")" ∨
        sql = f.text ++ " NOT IN  ( SELECT " ++ valuesOf table path ++ " WHERE "
          ++ textPath (table ++ "." ++ documentColumn) path ++ " IS NOT NULL)") ∧
      (scope.schema.addressed qualifier).head? = some table ∧
      (table = final ↔ (scope.schema.addressed qualifier).head? = some final) ∧
      ((∀ other ∈ scope.schema.addressed qualifier, other = final) → table = final) := by
  obtain ⟨route, hroute⟩ := exists_joinPath_of_valueJoin h
  obtain ⟨final, hfinal, hmem⟩ := exists_finalTable_of_joinPath hroute
  obtain ⟨table, f, -, htable, hf, hsql⟩ := Condition.valueJoin_outcome h
  rw [Schema.tableForAlias_eq_head?] at htable
  refine ⟨route, final, table, f, hroute, hfinal, hmem, hf, ?_, htable, ?_, ?_⟩
  · unfold valuesOf
    simpa only [String.append_assoc] using hsql
  · rw [htable, Option.some.injEq]
  · intro hone
    exact hone table (List.mem_of_head? htable)

/-- Two keys share the alias `owner`: that of an item leads to a library, that of
a loan to a user.  The alias `copy` stands for one table only, though two keys
give it. -/
def ownerScope : Scope :=
  { table := "loan"
    columns := ["loan.jsonb"]
    schema :=
      { tables :=
          [{ tableName := "item"
             foreignKeys :=
               [{ fieldName := "libraryId", targetTable := "library"
                  targetTableAlias := some "owner" },
                { fieldName := "formerId", targetTable := "item", targetTableAlias := some "copy" }] },
           { tableName := "loan"
             foreignKeys :=
               [{ fieldName := "userId", targetTable := "users", targetTableAlias := some "owner" },
                { fieldName := "itemId", targetTable := "item", targetTableAlias := some "copy" }] },
           { tableName := "library" },
           { tableName := "users" }] }
    serverChoice := []
    mode := .permissive }

/-- All keys with the alias `copy` point at one table, which is the one that is
read. -/
theorem valueJoin_selects_shared_alias :
    ∃ sql route f, ownerScope.valueJoin "copy" "code" ⟨"ref", ⟨"<>", []⟩, "copy.code"⟩ = .ok sql ∧
      ownerScope.joinPath "copy" = .ok route ∧ route.finalTable? = some "item" ∧
      ownerScope.field "ref" = .ok f ∧
      (sql = f.text ++ " IN  ( SELECT " ++ valuesOf "item" "code" ++ ")" ∨
        sql = f.text ++ " NOT IN  ( SELECT " ++ valuesOf "item" "code" ++ " WHERE "
          ++ textPath ("item" ++ "." ++ documentColumn) "code" ++ " IS NOT NULL)") := by
  have hsql : ownerScope.valueJoin "copy" "code" ⟨"ref", ⟨"<>", []⟩, "copy.code"⟩ = .ok
      ("loan.jsonb->>'ref' NOT IN  ( SELECT item.jsonb->>'code' from item WHERE "
        ++ "item.jsonb->>'code' IS NOT NULL)") :=
    Logged.result_eq_ok_iff (x := .ofExcept _).2 (by decide +kernel)
  obtain ⟨route, final, table, f, hroute, hfinal, hmem, hf, htext, -, -, hone⟩ :=
    valueJoin_selects_first_addressed hsql
  have hall : ∀ other ∈ ownerScope.schema.addressed "copy", other = "item" := by decide +kernel
  obtain rfl : final = "item" := hall final hmem
  obtain rfl : table = "item" := hone hall
  exact ⟨_, route, f, hsql, hroute, hfinal, hf, htext⟩

/-- The alias `owner` leads from a loan to its user, and the values are those of
the libraries, which no key connects with loans. -/
theorem valueJoin_selects_other_table :
    (Condition.clause ownerScope ⟨"ref", ⟨"==", []⟩, "owner.code"⟩).result = .ok
      "loan.jsonb->>'ref' IN  ( SELECT library.jsonb->>'code' from library)" ∧
    ownerScope.joinPath "owner" = .ok (.toParent [⟨"loan", "userId", "users"⟩]) ∧
    ownerScope.joinPath "library" = .error (.query (.noJoin "loan" "library")) := by
  refine ⟨Logged.result_eq_ok_iff.2 (by decide +kernel), ?_, ?_⟩
  · exact joinPath_eq_toParent_iff.2 (by decide +kernel)
  · exact Logged.result_eq_error_iff (x := .ofExcept _).2 (by decide +kernel)

end Scope

end CqlToSql
