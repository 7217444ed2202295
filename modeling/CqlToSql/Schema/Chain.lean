/-
  CqlToSql.Schema.Chain
  ─────────────────────
  **Chains of foreign keys.**  A chain starts at a table and follows foreign
  keys from child to parent, each key belonging to the table that the key
  before it points at.

  `search` looks for the shortest chain whose last key is a wanted one.  It
  goes level by level: the frontier holds the tables that a shortest chain of
  the current length reaches, in the order in which they are found, and a
  table enters the frontier once.  Each level that enters a table leaves fewer
  targets of keys to enter, so a search ends on cycles as well.

      pathToAlias    — from a table up to a parent addressed by its alias
      pathFromAlias  — from a child addressed by its alias up to a table,
                       listed from that table downwards
-/
import CqlToSql.Schema.Table

namespace CqlToSql

/-! ## §1. Hops. -/

/-- One foreign key of a chain: `table.field` holds an id of `target`. -/
structure Hop where
  /-- Child table. -/
  table : String
  /-- Dotted path of the field that holds the id. -/
  field : String
  /-- Parent table. -/
  target : String
  deriving Repr, DecidableEq, Inhabited

/-- The hop of a foreign key of a table. -/
def ForeignKey.hop (k : ForeignKey) (t : Table) : Hop :=
  { table := t.tableName, field := k.fieldName, target := k.targetTable }

/-! ## §2. Level by level. -/

/-- A table that the search has reached, with the chain that leads to it. -/
structure Reached where
  table : String
  chain : List Hop

/-- A foreign key that leads on, with the chain that ends with it. -/
structure Step where
  key : ForeignKey
  chain : List Hop

/-- How far a search has come: the tables that it entered last, and all that
it entered so far. -/
structure SearchLevel where
  frontier : List Reached
  visited : List String

/-- At first there is only the table that the search starts at. -/
def SearchLevel.start (source : String) : SearchLevel :=
  { frontier := [{ table := source, chain := [] }], visited := [source] }

namespace Schema

/-- The foreign keys that lead on from a reached table. -/
def stepsFrom (s : Schema) (r : Reached) : List Step :=
  match s.table? r.table with
  | none => []
  | some t => t.foreignKeys.map fun k => { key := k, chain := r.chain ++ [k.hop t] }

/-- The tables that steps lead to, those in `visited` and repetitions left
out. -/
def fresh (visited : List String) : List Step → List Reached
  | [] => []
  | step :: steps =>
    if visited.contains step.key.targetTable then fresh visited steps
    else
      { table := step.key.targetTable, chain := step.chain }
        :: fresh (step.key.targetTable :: visited) steps

/-- The foreign keys that lead on from the frontier. -/
def steps (s : Schema) (l : SearchLevel) : List Step := l.frontier.flatMap s.stepsFrom

/-- The next level: the tables that are entered from the frontier. -/
def next (s : Schema) (l : SearchLevel) : SearchLevel :=
  let entered := fresh l.visited (s.steps l)
  { frontier := entered, visited := entered.map Reached.table ++ l.visited }

/-! ## §3. Searching. -/

/-- The tables that keys point at and that are not visited yet, one for each
key. -/
def unvisited (s : Schema) (visited : List String) : List String :=
  (s.keys.map fun key => key.2.targetTable).filter fun name => !visited.contains name

theorem mem_of_mem_fresh {visited : List String} {steps : List Step} {r : Reached}
    (h : r ∈ fresh visited steps) :
    r.table ∉ visited ∧ ∃ step ∈ steps, step.key.targetTable = r.table := by
  fun_induction fresh visited steps with
  | case1 => cases h
  | case2 visited step steps _ ih =>
    obtain ⟨hvisited, other, hmem, htarget⟩ := ih h
    exact ⟨hvisited, other, List.mem_cons_of_mem _ hmem, htarget⟩
  | case3 visited step steps hvisited ih =>
    rcases List.mem_cons.1 h with rfl | h
    · exact ⟨by simpa using hvisited, step, List.mem_cons_self, rfl⟩
    · obtain ⟨hnew, other, hmem, htarget⟩ := ih h
      exact ⟨fun hold => hnew (List.mem_cons_of_mem _ hold), other,
        List.mem_cons_of_mem _ hmem, htarget⟩

theorem target_mem_of_mem_steps {s : Schema} {l : SearchLevel} {step : Step}
    (h : step ∈ s.steps l) :
    step.key.targetTable ∈ s.keys.map fun key => key.2.targetTable := by
  obtain ⟨r, -, h⟩ := List.mem_flatMap.1 h
  unfold stepsFrom at h
  split at h
  · cases h
  · rename_i t ht
    obtain ⟨k, hk, rfl⟩ := List.mem_map.1 h
    have hkey : (t, k) ∈ s.keys :=
      List.mem_flatMap.2 ⟨t, List.mem_of_find?_eq_some ht, List.mem_map.2 ⟨k, hk, rfl⟩⟩
    exact List.mem_map.2 ⟨(t, k), hkey, rfl⟩

/-- A level that enters a table leaves fewer of them. -/
theorem length_unvisited_next {s : Schema} {l : SearchLevel} (h : (s.next l).frontier ≠ []) :
    (s.unvisited (s.next l).visited).length < (s.unvisited l.visited).length := by
  obtain ⟨r, hr⟩ := List.exists_mem_of_ne_nil _ h
  obtain ⟨hnew, step, hstep, htarget⟩ := mem_of_mem_fresh hr
  have hvisited : r.table ∈ (s.next l).visited :=
    List.mem_append_left _ (List.mem_map.2 ⟨r, hr, rfl⟩)
  have hmem : r.table ∈ s.unvisited l.visited := by
    rw [← htarget] at hnew ⊢
    exact List.mem_filter.2 ⟨target_mem_of_mem_steps hstep, by simpa using hnew⟩
  -- what the next level leaves is left now, and the entered table is not
  have hfilter : s.unvisited (s.next l).visited
      = (s.unvisited l.visited).filter fun name => !(s.next l).visited.contains name := by
    unfold unvisited
    rw [List.filter_filter]
    refine List.filter_congr fun name _ => ?_
    by_cases hname : name ∈ l.visited <;> simp [next, hname]
  rw [hfilter]
  exact List.length_filter_lt_length_iff_exists.2 ⟨r.table, hmem, by simpa using hvisited⟩

/-- The first chain to a wanted key that leads through the frontier.  The
search ends with it, or else when a level enters no table. -/
def searchFrom (s : Schema) (wanted : ForeignKey → Bool) (l : SearchLevel) : Option (List Hop) :=
  match (s.steps l).find? fun step => wanted step.key with
  | some step => some step.chain
  | none => if (s.next l).frontier.isEmpty then none else s.searchFrom wanted (s.next l)
termination_by (s.unvisited l.visited).length
decreasing_by
  rename_i hempty
  exact length_unvisited_next fun hnil => hempty (by rw [hnil]; rfl)

/-- The shortest chain that starts at the table `source` and ends with a
wanted key. -/
def search (s : Schema) (wanted : ForeignKey → Bool) (source : String) : Option (List Hop) :=
  s.searchFrom wanted (.start source)

/-! ## §4. Paths between tables and aliases. -/

/-- The shortest chain from the table `source` to a parent with that alias. -/
def pathToAlias (s : Schema) (source label : String) : Option (List Hop) :=
  s.search (fun k => k.targetAlias == label) source

/-- The shortest chain from the table `child` to the table `parent`. -/
def pathBetween (s : Schema) (child parent : String) : Option (List Hop) :=
  s.search (fun k => k.targetTable == parent) child

/-- The shortest of the chains that start with one of the keys and end at the
table `target`; `best` is the shortest one so far.  Of chains of the same
length the first wins. -/
def shortestVia (s : Schema) (target : String) (best : Option (List Hop)) :
    List (Table × ForeignKey) → Option (List Hop)
  | [] => best
  | (t, k) :: rest =>
    if k.targetTable = target then some [k.hop t]
    else
      match s.pathBetween k.targetTable target with
      | none => s.shortestVia target best rest
      | some chain =>
        let path := k.hop t :: chain
        match best with
        | none => s.shortestVia target (some path) rest
        | some b =>
          s.shortestVia target (some (if path.length < b.length then path else b)) rest

/-- The shortest chain from a child with that alias to the table `target`,
listed from `target` downwards. -/
def pathFromAlias (s : Schema) (label target : String) : Option (List Hop) :=
  (s.shortestVia target none (s.keys.filter fun (t, k) => k.sourceAlias t == label)).map
    List.reverse

end Schema

end CqlToSql
