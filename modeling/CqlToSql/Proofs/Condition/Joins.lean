/-
  CqlToSql.Proofs.Condition.Joins
  ───────────────────────────────
  **Joins follow the chain of foreign keys.**  The nested subqueries of a join
  are read as SQL and evaluated in a database.  A record fulfils the condition
  just when a trail of records leads from it, one record for each table of the
  chain, to one that fulfils the innermost condition:

      r  ─link→  r₁  ─link→  …  ─link→  last,    last fulfils `P`

  Each link is a foreign key, followed from child to parent or from parent to
  child.  One link is one step (`eval_link_eq_yes_iff`), and a chain of them is
  a run (`eval_links_eq_yes_iff`).

  The main statement is about every schema whose key fields have no quotes:
  tables may have any names, as the reader takes the names of the tables along
  the chain as wholes, and the innermost condition as a whole too.  It says the
  same of the words of the text alone for tables along the chain whose names
  are identifiers and an innermost condition in which quotes and parentheses are
  balanced.
-/
import CqlToSql.Proofs.Condition.Links

namespace CqlToSql

open CqlToSql.Text CqlToSql.Sql CqlToSql.Condition

/-! ## §1. One link is one step. -/

section Evaluation

variable {Atom Id : Type} {links : List Link}

/-- The key of the child holds the id of the parent. -/
def Link.Relates (link : Link) (r r' : Row Id) : Prop :=
  match link with
  | .up h => r.key h.field = some r'.id
  | .down h => r'.key h.field = some r.id

/-- A key is looked up in the innermost row of its table. -/
theorem Hop.value_keyOperand (h : Hop) (r : Row Id) (rows : Rows Id) :
    h.keyOperand.value ((h.table, r) :: rows) = r.key h.field := by
  show ((List.lookup h.table ((h.table, r) :: rows)).bind _) = _
  rw [List.lookup_cons_self, Option.bind_some, joinWith_splitAt]

variable [DecidableEq Id] {db : Database Id} {v : Predicates Atom Id} {rows : Rows Id}
  {condition : Nested Atom}

/-- **A link is one step from record to record.** -/
theorem eval_link_eq_yes_iff (link : Link) {r : Row Id} :
    (link.nest condition).eval db v ((link.source, r) :: rows) = .yes ↔
      ∃ r' ∈ db link.target, link.Relates r r' ∧
        condition.eval db v ((link.target, r') :: (link.source, r) :: rows) = .yes := by
  cases link with
  | up h =>
    show (Nested.isIn h.keyOperand (.key none) h.target condition).eval db v
      ((h.table, r) :: rows) = .yes ↔ _
    rw [eval_isIn_eq_yes_iff, h.value_keyOperand]
    -- the selected id is the one of the row in the innermost subquery
    constructor
    · rintro ⟨r', hmem, hinner, x, htested, hselected⟩
      cases hselected
      exact ⟨r', hmem, htested, hinner⟩
    · rintro ⟨r', hmem, hrelates, hinner⟩
      exact ⟨r', hmem, hinner, r'.id, hrelates, rfl⟩
  | down h =>
    show (Nested.isIn (.key (some h.target)) h.keyOperand h.table condition).eval db v
      ((h.target, r) :: rows) = .yes ↔ _
    have htarget : (Operand.key (some h.target)).value ((h.target, r) :: rows) = some r.id := by
      show (List.lookup h.target ((h.target, r) :: rows)).map _ = _
      rw [List.lookup_cons_self]
      rfl
    rw [eval_isIn_eq_yes_iff, htarget]
    simp only [h.value_keyOperand]
    constructor
    · rintro ⟨r', hmem, hinner, x, htested, hselected⟩
      cases htested
      exact ⟨r', hmem, hselected, hinner⟩
    · rintro ⟨r', hmem, hrelates, hinner⟩
      exact ⟨r', hmem, hinner, r.id, rfl, hrelates⟩

/-! ## §2. A chain of links is a run. -/

/-- The links lead from the record `r` to the record `last`, through one record
of each table on the way. -/
inductive Trail (db : Database Id) : Row Id → List Link → Row Id → Prop
  | here (r : Row Id) : Trail db r [] r
  | step {r r' last : Row Id} {link : Link} {links : List Link} (hmem : r' ∈ db link.target)
      (hrelates : link.Relates r r') (hrest : Trail db r' links last) :
      Trail db r (link :: links) last

/-- `P` says which rows of the table a condition is true of, whatever rows
there are around. -/
def SaysOf (db : Database Id) (table : String) (truth : Rows Id → Truth) (P : Row Id → Prop) :
    Prop :=
  ∀ rows, ∀ row ∈ db table, truth ((table, row) :: rows) = .yes ↔ P row

/-- **A chain of links is true of the records that a trail leads from.** -/
theorem eval_links_eq_yes_iff {first last : String} {P : Row Id → Prop}
    (hconnects : Connects first links last)
    (hp : SaysOf db last (fun rows => condition.eval db v rows) P) :
    SaysOf db first (fun rows => (links.foldr Link.nest condition).eval db v rows)
      fun r => ∃ final, Trail db r links final ∧ P final := by
  -- the rows already passed stay at hand and grow link by link
  induction links generalizing first with
  | nil =>
    intro rows r hr
    have hsame : first = last := hconnects
    subst hsame
    show condition.eval db v ((first, r) :: rows) = .yes ↔ _
    rw [hp rows r hr]
    constructor
    · intro h
      exact ⟨r, .here r, h⟩
    · rintro ⟨final, htrail, h⟩
      cases htrail
      exact h
  | cons link links ih =>
    intro rows r hr
    obtain ⟨hsource, hrest⟩ := hconnects
    subst hsource
    dsimp only
    rw [List.foldr_cons, eval_link_eq_yes_iff]
    constructor
    · rintro ⟨r', hmem, hrelates, h⟩
      obtain ⟨final, htrail, hfinal⟩ := (ih hrest _ r' hmem).1 h
      exact ⟨final, .step hmem hrelates htrail, hfinal⟩
    · rintro ⟨final, htrail, hfinal⟩
      cases htrail with
      | step hmem hrelates htrail =>
        exact ⟨_, hmem, hrelates, (ih hrest _ _ hmem).2 ⟨final, htrail, hfinal⟩⟩

end Evaluation

/-! ## §3. The route of a qualified name. -/

/-- The links of a join, from the searched table on. -/
def JoinPath.links : JoinPath → List Link
  | .toParent hops => hops.map .up
  | .toChild hops => hops.map .down

/-- The links that the qualifiers of a name lead along, from one scope to
another, and what is left of the name there. -/
inductive Route : Scope → String → List Link → Scope → String → Prop
  /-- The name is searched in the scope itself. -/
  | here {scope : Scope} {name : String}
      (h : sameAsciiFold name allRecords = true ∨ scope.qualifier? name = none) :
      Route scope name [] scope name
  /-- The first qualifier is another table, and the rest is searched there. -/
  | join {scope final : Scope} {name qualifier rest last table : String} {path : JoinPath}
      {links : List Link} (hall : sameAsciiFold name allRecords = false)
      (hq : scope.qualifier? name = some (qualifier, rest))
      (hpath : scope.joinPath qualifier = .ok path) (htable : path.finalTable? = some table)
      (hrest : Route (scope.forTable table) rest links final last) :
      Route scope name (path.links ++ links) final last

variable {scope : Scope} {path : JoinPath}

theorem JoinPath.nest_eq_foldr (path : JoinPath) (inner : String) :
    path.nest inner = path.links.foldr Link.text inner := by
  cases path with
  | toParent hops =>
    show _ = (hops.map Link.up).foldr Link.text inner
    rw [List.foldr_map]
    rfl
  | toChild hops =>
    show _ = (hops.map Link.down).foldr Link.text inner
    rw [List.foldr_map]
    rfl

theorem JoinPath.hop_mem_of_mem_links {link : Link} (h : link ∈ path.links) :
    link.hop ∈ path.hops := by
  cases path with
  | toParent hops =>
    obtain ⟨hop, hmem, rfl⟩ := List.mem_map.1 h
    exact hmem
  | toChild hops =>
    obtain ⟨hop, hmem, rfl⟩ := List.mem_map.1 h
    exact hmem

/-- The final table is where the last link leads to. -/
theorem JoinPath.finalTable?_eq_target (path : JoinPath) :
    path.finalTable? = path.links.getLast?.map Link.target := by
  cases path with
  | toParent hops =>
    show hops.getLast?.map _ = (hops.map Link.up).getLast?.map _
    rw [List.getLast?_map, Option.map_map]
    rfl
  | toChild hops =>
    show hops.getLast?.map _ = (hops.map Link.down).getLast?.map _
    rw [List.getLast?_map, Option.map_map]
    rfl

/-- The chain of a join leads from the searched table to the final one. -/
theorem Scope.connects_of_joinPath {qualifier table : String}
    (h : scope.joinPath qualifier = .ok path) (ht : path.finalTable? = some table) :
    Connects scope.table path.links table := by
  have hconnects : ∃ last, Connects scope.table path.links last := by
    unfold Scope.joinPath at h
    split at h
    · rename_i hops hto _
      cases h
      exact Schema.connects_of_pathToAlias hto
    · rename_i hops _ hfrom
      cases h
      exact Schema.connects_of_pathFromAlias hfrom
    · cases h
    · cases h
  obtain ⟨last, hconnects⟩ := hconnects
  rw [path.finalTable?_eq_target] at ht
  obtain ⟨link, hlink, rfl⟩ := Option.map_eq_some_iff.1 ht
  rw [hconnects.target_getLast hlink]
  exact hconnects

/-- A name has one route. -/
theorem Route.unique {scope final final' : Scope} {name last last' : String}
    {links links' : List Link} (h : Route scope name links final last)
    (h' : Route scope name links' final' last') : links = links' ∧ final = final' ∧ last = last' := by
  induction h generalizing links' with
  | here hhere =>
    cases h' with
    | here => exact ⟨rfl, rfl, rfl⟩
    | join hall hq => simp [hall, hq] at hhere
  | join hall hq hpath htable _ ih =>
    cases h' with
    | here hhere => simp [hall, hq] at hhere
    | join _ hq' hpath' htable' hrest' =>
      rw [hq] at hq'
      cases hq'
      rw [hpath] at hpath'
      cases hpath'
      rw [htable] at htable'
      cases htable'
      obtain ⟨rfl, rfl, rfl⟩ := ih hrest'
      exact ⟨rfl, rfl, rfl⟩

namespace Condition

/-- A clause is compiled at the end of the route of its index, and the links
of the route are put around what comes out there. -/
theorem clause_route {scope : Scope} {c : Clause} {sql : String}
    (h : (clause scope c).result = .ok sql) :
    ∃ links final rest inner, Route scope c.index links final rest ∧
      Connects scope.table links final.table ∧
      (∀ link ∈ links, scope.schema.Declares link.hop) ∧
      (clause final { c with index := rest }).result = .ok inner ∧
      sql = links.foldr Link.text inner := by
  by_cases hall : sameAsciiFold c.index allRecords = true
  · exact ⟨[], scope, c.index, sql, .here (.inl hall), rfl, by simp, h, rfl⟩
  · cases hq : scope.qualifier? c.index with
    | none => exact ⟨[], scope, c.index, sql, .here (.inr hq), rfl, by simp, h, rfl⟩
    | some cut =>
      obtain ⟨qualifier, rest⟩ := cut
      have hall : sameAsciiFold c.index allRecords = false := by simpa using hall
      obtain ⟨path, table, middle, hpath, htable, hmiddle, rfl⟩ := clause_join_outcome hall hq h
      -- the index gets shorter from table to table
      have hlen := Scope.qualifier?_length hq
      obtain ⟨links, final, last, inner, hroute, hconnects, hdeclares, hinner, rfl⟩ :=
        clause_route hmiddle
      refine ⟨path.links ++ links, final, last, inner, .join hall hq hpath htable hroute,
        (Scope.connects_of_joinPath hpath htable).append hconnects, ?_, hinner, ?_⟩
      · intro link hmem
        rcases List.mem_append.1 hmem with hmem | hmem
        · exact scope.declares_of_joinPath hpath _ (JoinPath.hop_mem_of_mem_links hmem)
        · exact hdeclares link hmem
      · rw [List.foldr_append, JoinPath.nest_eq_foldr]
termination_by c.index.toList.length

/-! ## §4. Joins in a database. -/

/-- A declared hop of a checked schema has proper names. -/
theorem isNamed_of_declares {schema : Schema} {hop : Hop} (hcheck : schema.check = .ok ())
    (hkeys : ∀ t ∈ schema.tables, ∀ k ∈ t.foreignKeys, '\'' ∉ k.fieldName.toList)
    (h : schema.Declares hop) : hop.IsNamed := by
  obtain ⟨t, ht, k, hk, rfl⟩ := h
  obtain ⟨hname, htargets⟩ := Schema.isIdentifier_of_checkTables hcheck t ht
  exact ⟨hname, htargets k hk, hkeys t ht k hk⟩

/-- **Joins follow exactly the chain of foreign keys.**  The qualifiers of the
index lead along declared keys, each belonging to where the one before it
ends.  In every database, whatever the innermost condition says about the rows
of the final table, the condition is true of a row just when a trail of rows
along these keys leads from it to one that the innermost condition is true of.

This is so for all names of tables when they are read as wholes, and the
innermost condition with them.  It is so for the words of the text alone if the
tables of the chain have identifiers for names and the innermost condition is
balanced. -/
theorem clause_follows_foreign_keys {scope : Scope} {c : Clause} {sql : String}
    (hkeys : ∀ t ∈ scope.schema.tables, ∀ k ∈ t.foreignKeys, '\'' ∉ k.fieldName.toList)
    (h : (clause scope c).result = .ok sql) :
    ∃ links final rest inner, Route scope c.index links final rest ∧
      Connects scope.table links final.table ∧
      (∀ link ∈ links, scope.schema.Declares link.hop) ∧
      (clause final { c with index := rest }).result = .ok inner ∧
      ∀ (Id : Type) [DecidableEq Id] (db : Database Id) (P : Row Id → Prop),
        (∀ v : Predicates String Id, SaysOf db final.table (v inner) P →
          ∀ r ∈ db scope.table,
            (evaluateOver db v scope.table (links.map Link.target) [(scope.table, r)] sql = .yes ↔
              ∃ last, Trail db r links last ∧ P last)) ∧
        ((∀ link ∈ links,
            isIdentifier link.hop.table = true ∧ isIdentifier link.hop.target = true) →
          Balanced true inner → ∀ v : Predicates (List Sql.Token) Id,
          SaysOf db final.table (fun rows => evaluate db v rows inner) P →
          ∀ r ∈ db scope.table,
            (evaluate db v [(scope.table, r)] sql = .yes ↔
              ∃ last, Trail db r links last ∧ P last)) := by
  obtain ⟨links, final, rest, inner, hroute, hconnects, hdeclares, hinner, rfl⟩ := clause_route h
  have hfields : ∀ link ∈ links, '\'' ∉ link.hop.field.toList := by
    intro link hmem
    obtain ⟨t, ht, k, hk, hhop⟩ := hdeclares link hmem
    rw [hhop]
    exact hkeys t ht k hk
  refine ⟨links, final, rest, inner, hroute, hconnects, hdeclares, hinner, ?_⟩
  intro Id _ db P
  constructor
  · intro v hp r hr
    rw [evaluateOver, readOver_links hconnects hfields]
    exact eval_links_eq_yes_iff hconnects hp [] r hr
  · intro hnames hbalanced v hp r hr
    have hnamed : ∀ link ∈ links, link.hop.IsNamed := fun link hmem =>
      ⟨(hnames link hmem).1, (hnames link hmem).2, hfields link hmem⟩
    rw [evaluate, readNested_links hnamed hbalanced]
    exact eval_links_eq_yes_iff hconnects hp [] r hr

/-- Holdings of items, in a table whose name has a blank, and items that are
parts of other items. -/
def itemScope : Scope :=
  { table := "items"
    columns := ["items.jsonb"]
    schema :=
      { tables :=
          [{ tableName := "my holdings"
             foreignKeys :=
               [{ fieldName := "itemId", targetTable := "items"
                  targetTableAlias := some "item" }] },
           { tableName := "items"
             foreignKeys :=
               [{ fieldName := "parent.id", targetTable := "items"
                  targetTableAlias := some "parent" }] }] }
    serverChoice := []
    mode := .strict }

/-- From an item up to its parent. -/
theorem route_parent :
    Route itemScope "parent.title" [.up ⟨"items", "parent.id", "items"⟩] itemScope "title" := by
  have hsame : itemScope.forTable "items" = itemScope := by decide +kernel
  have hpath : itemScope.joinPath "parent" = .ok (.toParent [⟨"items", "parent.id", "items"⟩]) :=
    Scope.joinPath_eq_toParent_iff.2 (by decide +kernel)
  have hq : itemScope.qualifier? "parent.title" = some ("parent", "title") := by decide +kernel
  refine .join (by decide +kernel) hq hpath rfl ?_
  show Route (itemScope.forTable "items") "title" [] itemScope "title"
  rw [hsame]
  exact .here (.inr (by decide +kernel))

/-- From an item down to its holdings, up to the item of each and up to the
parent of that one. -/
theorem route_holdings :
    Route itemScope "my holdings.item.parent.title"
      [.down ⟨"my holdings", "itemId", "items"⟩, .up ⟨"my holdings", "itemId", "items"⟩,
        .up ⟨"items", "parent.id", "items"⟩] itemScope "title" := by
  have hsame : (itemScope.forTable "my holdings").forTable "items" = itemScope := by
    decide +kernel
  have hitem : (itemScope.forTable "my holdings").joinPath "item" =
      .ok (.toParent [⟨"my holdings", "itemId", "items"⟩]) :=
    Scope.joinPath_eq_toParent_iff.2 (by decide +kernel)
  have hholdings : itemScope.joinPath "my holdings" =
      .ok (.toChild [⟨"my holdings", "itemId", "items"⟩]) :=
    Scope.joinPath_eq_toChild_iff.2 (by decide +kernel)
  have hq : itemScope.qualifier? "my holdings.item.parent.title" =
      some ("my holdings", "item.parent.title") := by
    decide +kernel
  have hq' : (itemScope.forTable "my holdings").qualifier? "item.parent.title" =
      some ("item", "parent.title") := by
    decide +kernel
  refine .join (by decide +kernel) hq hholdings rfl ?_
  refine .join (by decide +kernel) hq' hitem rfl ?_
  show Route ((itemScope.forTable "my holdings").forTable "items") "parent.title" _ _ _
  rw [hsame]
  exact route_parent

/-- An item that is part of the item 2. -/
def partItem : Row Nat :=
  { id := 1, key := fun field => if field = "parent.id" then some 2 else none }

/-- An item that is part of nothing. -/
def wholeItem : Row Nat := { id := 2, key := fun _ => none }

/-- A holding of the item 1. -/
def holding : Row Nat := { id := 3, key := fun field => if field = "itemId" then some 1 else none }

/-- The two items, and the holding of the first. -/
def itemDatabase : Database Nat := fun table =>
  if table = "items" then [partItem, wholeItem] else [holding]

/-- Every predicate is true of the item 2 alone. -/
def isWholeItem {Atom : Type} : Predicates Atom Nat := fun _ rows =>
  if rows.head?.map (fun row => row.2.id) = some 2 then .yes else .no

theorem saysOf_isWholeItem {Atom : Type} (a : Atom) :
    SaysOf itemDatabase "items" (isWholeItem a) fun row => row.id = 2 := by
  intro rows row _
  simp [isWholeItem]

/-- The table of items is left and entered again twice; what is asked for is
true of the item whose parent is found, and not of the other.  Without the
table with a blank, the words of the text say so too. -/
theorem clause_follows_cycle :
    (∃ sql, (clause itemScope ⟨"my holdings.item.parent.title", ⟨"==", []⟩, "x"⟩).result = .ok sql ∧
      evaluateOver itemDatabase isWholeItem "items" ["my holdings", "items", "items"]
        [("items", partItem)] sql = .yes ∧
      evaluateOver itemDatabase isWholeItem "items" ["my holdings", "items", "items"]
        [("items", wholeItem)] sql ≠ .yes) ∧
    ∃ sql, (clause itemScope ⟨"parent.title", ⟨"==", []⟩, "x"⟩).result = .ok sql ∧
      evaluate itemDatabase isWholeItem [("items", partItem)] sql = .yes := by
  have hkeys : ∀ t ∈ itemScope.schema.tables, ∀ k ∈ t.foreignKeys, '\'' ∉ k.fieldName.toList := by
    decide +kernel
  have hpart : partItem ∈ itemDatabase "items" := by simp [itemDatabase]
  have hwhole : wholeItem ∈ itemDatabase "items" := by simp [itemDatabase]
  have hholding : holding ∈ itemDatabase "my holdings" := by simp [itemDatabase]
  constructor
  · have hsql : (clause itemScope ⟨"my holdings.item.parent.title", ⟨"==", []⟩, "x"⟩).result = .ok
        ("items.id IN  ( SELECT (my holdings.jsonb->>'itemId')::UUID from my holdings WHERE "
          ++ "(my holdings.jsonb->>'itemId')::UUID IN  ( SELECT id from items WHERE "
          ++ "(items.jsonb->'parent'->>'id')::UUID IN  ( SELECT id from items WHERE "
          ++ "lower(f_unaccent(items.jsonb->>'title')) LIKE lower(f_unaccent('x')))))") := by
      rw [Logged.result_eq_ok_iff]
      decide +kernel
    obtain ⟨links, final, rest, inner, hroute, -, -, -, htruth⟩ :=
      clause_follows_foreign_keys hkeys hsql
    obtain ⟨rfl, rfl, rfl⟩ := hroute.unique route_holdings
    have hiff := (htruth Nat itemDatabase _).1 isWholeItem (saysOf_isWholeItem inner)
    refine ⟨_, hsql, ?_, ?_⟩
    · refine (hiff partItem hpart).2 ⟨wholeItem, ?_, rfl⟩
      refine .step hholding ?_ (.step hpart ?_ (.step hwhole ?_ (.here wholeItem)))
      · rfl
      · rfl
      · rfl
    · intro h
      obtain ⟨last, htrail, -⟩ := (hiff wholeItem hwhole).1 h
      -- no holding belongs to this item
      cases htrail with
      | step hmem hrelates _ =>
        rw [List.mem_singleton.1 hmem] at hrelates
        cases hrelates
  · have hsql : (clause itemScope ⟨"parent.title", ⟨"==", []⟩, "x"⟩).result = .ok
        ("(items.jsonb->'parent'->>'id')::UUID IN  ( SELECT id from items WHERE "
          ++ "lower(f_unaccent(items.jsonb->>'title')) LIKE lower(f_unaccent('x')))") := by
      rw [Logged.result_eq_ok_iff]
      decide +kernel
    obtain ⟨links, final, rest, inner, hroute, -, -, hinner, htruth⟩ :=
      clause_follows_foreign_keys hkeys hsql
    obtain ⟨rfl, rfl, rfl⟩ := hroute.unique route_parent
    have htext : (clause itemScope ⟨"title", ⟨"==", []⟩, "x"⟩).result = .ok
        "lower(f_unaccent(items.jsonb->>'title')) LIKE lower(f_unaccent('x'))" := by
      rw [Logged.result_eq_ok_iff]
      decide +kernel
    obtain rfl := Except.ok.inj (hinner.symm.trans htext)
    -- the innermost condition has no subquery, so its truth is the given one
    have hatom : readNested (tokens
        "lower(f_unaccent(items.jsonb->>'title')) LIKE lower(f_unaccent('x'))") =
        .atom (tokens "lower(f_unaccent(items.jsonb->>'title')) LIKE lower(f_unaccent('x'))") := by
      decide +kernel
    have hsays : SaysOf itemDatabase "items" (fun rows => evaluate itemDatabase isWholeItem rows
        "lower(f_unaccent(items.jsonb->>'title')) LIKE lower(f_unaccent('x'))")
          fun row => row.id = 2 := by
      simp only [evaluate, hatom]
      exact saysOf_isWholeItem _
    refine ⟨_, hsql, ?_⟩
    refine ((htruth Nat itemDatabase _).2 (by decide +kernel) (by decide +kernel) isWholeItem hsays
      partItem hpart).2 ⟨wholeItem, .step hwhole rfl (.here wholeItem), rfl⟩

end Condition

end CqlToSql
