/-
  CqlToSql.Proofs.Schema.UnrelatedTable
  ─────────────────────────────────────
  **One more table at the end of a schema.**  A table with a new name, which no
  foreign key points at, is not reached from the tables that are there; its own
  keys lead from it to them.

      s.extend T        — the schema with the table `T` behind its tables
      T.labels          — its name, and the aliases that its keys write out

  Names that are no labels of it address what they addressed before, and the
  paths between them and the tables that are there are the same.
-/
import CqlToSql.Proofs.Schema.Paths

namespace CqlToSql

open CqlToSql.Text

/-- The names that a table brings into a schema. -/
def Table.labels (T : Table) : List String :=
  T.tableName :: T.foreignKeys.flatMap fun k => k.targetTableAlias.toList ++ k.tableAlias.toList

namespace Schema

/-- The schema with one more table at its end. -/
def extend (s : Schema) (T : Table) : Schema := { tables := s.tables ++ [T] }

/-- The table has a new name, which no key points at, and its keys point at
tables that are there. -/
structure IsUnrelated (s : Schema) (T : Table) : Prop where
  name : ∀ t ∈ s.tables, t.tableName ≠ T.tableName
  untargeted : ∀ t ∈ s.tables, ∀ k ∈ t.foreignKeys, k.targetTable ≠ T.tableName
  targets : ∀ k ∈ T.foreignKeys, ∃ t ∈ s.tables, t.tableName = k.targetTable

instance (s : Schema) (T : Table) : Decidable (s.IsUnrelated T) :=
  decidable_of_iff
    ((∀ t ∈ s.tables, t.tableName ≠ T.tableName) ∧
      (∀ t ∈ s.tables, ∀ k ∈ t.foreignKeys, k.targetTable ≠ T.tableName) ∧
      ∀ k ∈ T.foreignKeys, ∃ t ∈ s.tables, t.tableName = k.targetTable)
    ⟨fun h => ⟨h.1, h.2.1, h.2.2⟩, fun h => ⟨h.name, h.untargeted, h.targets⟩⟩

variable {s : Schema} {T : Table} {name label : String}

/-! ## §1. Names. -/

theorem keys_extend (s : Schema) (T : Table) :
    (s.extend T).keys = s.keys ++ T.foreignKeys.map fun k => (T, k) := by
  simp [keys, extend]

theorem findSome?_own {α : Type} {f : Table × ForeignKey → Option α}
    (h : ∀ k ∈ T.foreignKeys, f (T, k) = none) :
    (T.foreignKeys.map fun k => (T, k)).findSome? f = none := by
  simpa [List.findSome?_eq_none_iff] using h

theorem filter_own {p : Table × ForeignKey → Bool} (h : ∀ k ∈ T.foreignKeys, p (T, k) = false) :
    (T.foreignKeys.map fun k => (T, k)).filter p = [] := by
  simpa [List.filter_eq_nil_iff] using h

/-- Only its own name finds the table. -/
theorem table?_extend (h : name ≠ T.tableName) : (s.extend T).table? name = s.table? name := by
  have hnone : [T].find? (fun t => t.tableName == name) = none := by
    simp [Ne.symm h]
  unfold table? extend
  rw [List.find?_append, hnone, Option.or_none]

theorem isSome_table? {t : Table} (ht : t ∈ s.tables) : (s.table? t.tableName).isSome := by
  rw [table?, List.find?_isSome]
  exact ⟨t, ht, by simp⟩

theorem ne_tableName (h : label ∉ T.labels) : label ≠ T.tableName := by
  rintro rfl
  exact h List.mem_cons_self

/-- A name that is no label is no alias that the table gives itself. -/
theorem sourceAlias_ne (h : label ∉ T.labels) {k : ForeignKey} (hk : k ∈ T.foreignKeys) :
    k.sourceAlias T ≠ label := by
  unfold ForeignKey.sourceAlias
  rintro rfl
  cases halias : k.tableAlias with
  | none =>
    rw [halias] at h
    exact h List.mem_cons_self
  | some written =>
    refine h (List.mem_cons_of_mem _ (List.mem_flatMap.2 ⟨k, hk, ?_⟩))
    simp [halias]

/-- A name that is no label and addresses the target of one of the keys is the
name of a table that is there. -/
theorem isSome_table?_of_targetAlias (hu : s.IsUnrelated T) (h : label ∉ T.labels)
    {k : ForeignKey} (hk : k ∈ T.foreignKeys) (halias : k.targetAlias = label) :
    (s.table? label).isSome := by
  unfold ForeignKey.targetAlias at halias
  cases hwritten : k.targetTableAlias with
  | none =>
    -- without an alias the target is addressed by its own name
    rw [hwritten, Option.getD_none] at halias
    obtain ⟨t, ht, hname⟩ := hu.targets k hk
    rw [← halias, ← hname]
    exact isSome_table? ht
  | some written =>
    rw [hwritten, Option.getD_some] at halias
    refine absurd (List.mem_cons_of_mem _ (List.mem_flatMap.2 ⟨k, hk, ?_⟩)) h
    simp [hwritten, halias]

theorem isTableOrAlias_of_table? (h : (s.table? name).isSome) : s.isTableOrAlias name = true := by
  rw [table?, List.find?_isSome] at h
  obtain ⟨t, ht, hname⟩ := h
  refine List.any_eq_true.2 ⟨t, ht, ?_⟩
  rw [hname, Bool.true_or]

theorem isTableOrAlias_extend (hu : s.IsUnrelated T) (h : label ∉ T.labels) :
    (s.extend T).isTableOrAlias label = s.isTableOrAlias label := by
  have hsplit : (s.extend T).isTableOrAlias label = (s.isTableOrAlias label
      || (T.tableName == label
        || T.foreignKeys.any fun k => k.targetAlias == label || k.sourceAlias T == label)) := by
    simp [isTableOrAlias, extend, List.any_append]
  rw [hsplit, Bool.or_eq_left_iff_imp]
  intro haddressed
  rw [Bool.or_eq_true, beq_iff_eq, List.any_eq_true] at haddressed
  rcases haddressed with hname | ⟨k, hk, haddressed⟩
  · exact absurd hname.symm (ne_tableName h)
  · rw [Bool.or_eq_true, beq_iff_eq, beq_iff_eq] at haddressed
    rcases haddressed with htarget | hsource
    · exact isTableOrAlias_of_table? (isSome_table?_of_targetAlias hu h hk htarget)
    · exact absurd hsource (sourceAlias_ne h hk)

theorem tableForAlias_extend (hu : s.IsUnrelated T) (h : label ∉ T.labels) :
    (s.extend T).tableForAlias label = s.tableForAlias label := by
  unfold tableForAlias
  rw [table?_extend (ne_tableName h), keys_extend, List.findSome?_append]
  cases htable : s.table? label with
  | some t => rfl
  | none =>
    -- no key of the table has the name for its target or for itself
    rw [findSome?_own, Option.or_none]
    intro k hk
    have htarget : k.targetAlias ≠ label := fun halias => by
      have hsome := isSome_table?_of_targetAlias hu h hk halias
      rw [htable] at hsome
      cases hsome
    show (if k.targetAlias = label then _ else if k.sourceAlias T = label then _ else _) = _
    rw [if_neg htarget, if_neg (sourceAlias_ne h hk)]

/-! ## §2. Paths. -/

theorem keysOf_extend (h : name ≠ T.tableName) : (s.extend T).keysOf name = s.keysOf name := by
  rw [keysOf, table?_extend h]
  rfl

/-- Chains that start with keys that were there go along keys that were there. -/
theorem firstOf_extend (hu : s.IsUnrelated T) (wanted : ForeignKey → Bool) (n : Nat)
    {starts : List (Table × ForeignKey)} (hstarts : starts ⊆ s.keys) :
    (s.extend T).firstOf wanted n starts = s.firstOf wanted n starts := by
  induction n generalizing starts with
  | zero =>
    induction starts with
    | nil => rfl
    | cons key starts ih =>
      obtain ⟨-, hstarts⟩ := List.cons_subset.1 hstarts
      rw [firstOf_cons, firstOf_cons, ih hstarts, firstVia, firstVia]
  | succ n ihn =>
    induction starts with
    | nil => rfl
    | cons key starts ih =>
      obtain ⟨hkey, hstarts⟩ := List.cons_subset.1 hstarts
      obtain ⟨ht, hk⟩ := mem_keys_iff.1 hkey
      -- the key points at a table other than the new one
      rw [firstOf_cons, firstOf_cons, ih hstarts, firstVia_succ, firstVia_succ,
        keysOf_extend (hu.untargeted _ ht _ hk), ihn (keysOf_subset_keys _)]

theorem pathToAlias_extend (hu : s.IsUnrelated T) {source : String} (h : source ≠ T.tableName)
    (label : String) : (s.extend T).pathToAlias source label = s.pathToAlias source label := by
  have hfirst : IsFirst _ ((s.extend T).pathToAlias source label) :=
    isFirst_search (s.extend T) _ source
  refine (hfirst.congr fun n _ => ?_).unique (isFirst_search s _ source)
  rw [keysOf_extend h, firstOf_extend hu _ n (keysOf_subset_keys source)]

theorem pathFromAlias_extend (hu : s.IsUnrelated T) (h : label ∉ T.labels) (target : String) :
    (s.extend T).pathFromAlias label target = s.pathFromAlias label target := by
  have hfirst := isFirst_pathFromAlias (s.extend T) label target
  rw [keys_extend, List.filter_append, filter_own, List.append_nil] at hfirst
  · have hsame := (hfirst.congr fun n _ => firstOf_extend hu _ n List.filter_sublist.subset).unique
      (isFirst_pathFromAlias s label target)
    rw [← map_reverse_reverse ((s.extend T).pathFromAlias label target), hsame,
      map_reverse_reverse]
  · -- no key of the table is one of a child with that alias
    intro k hk
    exact beq_eq_false_iff_ne.2 (sourceAlias_ne h hk)

end Schema

end CqlToSql
