/-
  CqlToSql.Proofs.Schema.Paths
  ────────────────────────────
  **Paths are shortest chains of foreign keys.**  A path from a table to an
  alias, in either direction, is found just when there is a chain of keys
  between the two, and then it is one of the shortest.  The searches for it end
  in every schema, with or without cycles.

      pathToAlias    — one search from the table upwards
      pathFromAlias  — one search for each key of the aliased child, and the
                       shortest of the chains found so far is kept

  The second way keeps the earlier of two chains of the same length, so it
  chooses like one search that tries these keys in turn.  Without aliases the
  two paths between two tables are made of the same keys.
-/
import CqlToSql.Condition.Join
import CqlToSql.Proofs.Schema.Search

namespace CqlToSql

namespace Schema

variable {s : Schema} {wanted : ForeignKey → Bool} {starts : List (Table × ForeignKey)}

/-! ## §1. The first chain is a shortest one. -/

/-- The chain starts with one of the keys `starts` and ends with a wanted key. -/
def IsChainVia (s : Schema) (wanted : ForeignKey → Bool)
    (starts chain : List (Table × ForeignKey)) : Prop :=
  ∃ key ∈ starts, ∃ rest, s.EndsWanted wanted key rest ∧ chain = key :: rest

theorem isSome_iff_of_isFirst {found : Option (List Hop)}
    (h : IsFirst (fun n => s.firstOf wanted n starts) found) :
    found.isSome ↔ ∃ chain, s.IsChainVia wanted starts chain := by
  match found with
  | some hops =>
    obtain ⟨n, hn, -⟩ := h
    obtain ⟨key, hkey, rest, hrest, -, -⟩ := exists_endsWanted_of_firstOf hn
    exact iff_of_true rfl ⟨key :: rest, key, hkey, rest, hrest, rfl⟩
  | none =>
    refine iff_of_false (by simp) ?_
    rintro ⟨-, key, hkey, rest, hrest, -⟩
    have hsome := isSome_firstOf hkey hrest
    have hnone : s.firstOf wanted rest.length starts = none := h rest.length
    simp [hnone] at hsome

theorem shortest_of_isFirst {hops : List Hop}
    (h : IsFirst (fun n => s.firstOf wanted n starts) (some hops)) :
    (∃ chain, s.IsChainVia wanted starts chain ∧ hops = hopsOf chain) ∧
      ∀ chain, s.IsChainVia wanted starts chain → hops.length ≤ chain.length := by
  obtain ⟨n, hn, hbefore⟩ := h
  constructor
  · obtain ⟨key, hkey, rest, hrest, -, hhops⟩ := exists_endsWanted_of_firstOf hn
    exact ⟨key :: rest, ⟨key, hkey, rest, hrest, rfl⟩, hhops⟩
  · rintro - ⟨key, hkey, rest, hrest, rfl⟩
    have hsome := isSome_firstOf hkey hrest
    -- no chain is found for a smaller number of keys
    have hle : ¬ rest.length < n := fun hlt => by simp [hbefore rest.length hlt] at hsome
    rw [length_of_firstOf hn, List.length_cons]
    omega

/-! ## §2. From a table to a parent. -/

/-- A chain of keys from the table `source` to a parent with that alias. -/
def LeadsToAlias (s : Schema) (source label : String) (chain : List (Table × ForeignKey)) : Prop :=
  s.Follows source chain ∧ ∃ last, chain.getLast? = some last ∧ last.2.targetAlias = label

theorem leadsToAlias_iff {source label : String} {chain : List (Table × ForeignKey)} :
    s.LeadsToAlias source label chain ↔
      s.IsChainVia (fun k => k.targetAlias == label) (s.keysOf source) chain := by
  constructor
  · rintro ⟨hfollows, last, hlast, halias⟩
    cases chain with
    | nil => cases hlast
    | cons key rest =>
      obtain ⟨hkey, hrest⟩ := follows_cons_iff.1 hfollows
      rw [List.getLast?_cons] at hlast
      cases hlast
      exact ⟨key, hkey, rest, ⟨hrest, by simpa using halias⟩, rfl⟩
  · rintro ⟨key, hkey, rest, ⟨hrest, halias⟩, rfl⟩
    refine ⟨follows_cons_iff.2 ⟨hkey, hrest⟩, _, List.getLast?_cons, ?_⟩
    simpa using halias

/-- **A path to a parent is a shortest chain of keys**, and there is one just
when there is a chain.  The search for it ends in every schema, with a key that
has the alias or with no table left to go on from, after at most one level more
than there are keys. -/
theorem pathToAlias_shortest (s : Schema) (source label : String) :
    ((s.pathToAlias source label).isSome ↔ ∃ chain, s.LeadsToAlias source label chain) ∧
    (∀ hops, s.pathToAlias source label = some hops →
      (∃ chain, s.LeadsToAlias source label chain ∧ hops = hopsOf chain) ∧
        ∀ chain, s.LeadsToAlias source label chain → hops.length ≤ chain.length) ∧
    ∃ levels ≤ s.keys.length + 1,
      s.SearchEnds (fun k => k.targetAlias == label) levels (.start source)
        (s.pathToAlias source label) := by
  have hfirst : IsFirst _ (s.pathToAlias source label) := isFirst_search s _ source
  simp only [leadsToAlias_iff]
  refine ⟨isSome_iff_of_isFirst hfirst, fun hops hhops => ?_, searchEnds_search s _ source⟩
  rw [hhops] at hfirst
  exact shortest_of_isFirst hfirst

/-- A cycle of tables, a table that is not declared and an alias: of the chains
from `loan` to the alias `place`, none has fewer than three keys, and the search
for an alias that no key has does not go round in the cycle. -/
theorem pathToAlias_shortest_in_cycle :
    let s : Schema :=
      { tables :=
          [{ tableName := "loan"
             foreignKeys := [{ fieldName := "itemId", targetTable := "item" },
               { fieldName := "userId", targetTable := "user" }] },
           { tableName := "item"
             foreignKeys := [{ fieldName := "lastLoanId", targetTable := "loan" },
               { fieldName := "holdingId", targetTable := "holding" }] },
           { tableName := "holding"
             foreignKeys := [{ fieldName := "itemId", targetTable := "item" },
               { fieldName := "placeId", targetTable := "location"
                 targetTableAlias := some "place" }] }] }
    s.pathToAlias "loan" "place" =
        some [⟨"loan", "itemId", "item"⟩, ⟨"item", "holdingId", "holding"⟩,
          ⟨"holding", "placeId", "location"⟩] ∧
      (∀ chain, s.LeadsToAlias "loan" "place" chain → 3 ≤ chain.length) ∧
      (¬ ∃ chain, s.LeadsToAlias "user" "place" chain) ∧
      ∃ levels ≤ 7,
        s.SearchEnds (fun k => k.targetAlias == "shelf") levels (.start "loan") none := by
  intro s
  have hpath : s.pathToAlias "loan" "place" =
      some [⟨"loan", "itemId", "item"⟩, ⟨"item", "holdingId", "holding"⟩,
        ⟨"holding", "placeId", "location"⟩] := by decide +kernel
  have hnothing : s.pathToAlias "loan" "shelf" = none := by decide +kernel
  refine ⟨hpath, ((pathToAlias_shortest s "loan" "place").2.1 _ hpath).2, ?_, ?_⟩
  · rw [← (pathToAlias_shortest s "user" "place").1]
    decide +kernel
  · rw [← hnothing]
    exact (pathToAlias_shortest s "loan" "shelf").2.2

/-! ## §3. The shortest of several chains. -/

/-- The shorter of two chains, and of two with the same length the first. -/
def shorter : Option (List Hop) → Option (List Hop) → Option (List Hop)
  | none, y => y
  | x, none => x
  | some x, some y => some (if y.length < x.length then y else x)

/-- What is found for a number has that many keys after its first one. -/
def Sized (f : Nat → Option (List Hop)) : Prop := ∀ n hops, f n = some hops → hops.length = n + 1

theorem sized_firstVia (key : Table × ForeignKey) : Sized fun n => s.firstVia wanted n key := by
  intro n hops h
  obtain ⟨rest, -, hlength, rfl⟩ := exists_endsWanted_of_firstVia h
  simp [hopsOf, hlength]

theorem Sized.or {f g : Nat → Option (List Hop)} (hf : Sized f) (hg : Sized g) :
    Sized fun n => (f n).or (g n) := by
  intro n hops h
  rcases Option.or_eq_some_iff.1 h with h | ⟨-, h⟩
  · exact hf n hops h
  · exact hg n hops h

/-- The first hit of two sequences together is the shorter of their first
hits. -/
theorem isFirst_or {f g : Nat → Option (List Hop)} {x y : Option (List Hop)} (hf : Sized f)
    (hg : Sized g) (hx : IsFirst f x) (hy : IsFirst g y) :
    IsFirst (fun n => (f n).or (g n)) (shorter x y) := by
  match x, y with
  | none, y =>
    refine hy.congr fun n _ => ?_
    rw [hx n, Option.none_or]
  | some x, none =>
    refine hx.congr fun n _ => ?_
    rw [hy n, Option.or_none]
  | some x, some y =>
    obtain ⟨n, hn, hbefore⟩ := hx
    obtain ⟨m, hm, hbefore'⟩ := hy
    have hlengths : x.length = n + 1 ∧ y.length = m + 1 := ⟨hf n x hn, hg m y hm⟩
    by_cases hlt : y.length < x.length
    · refine ⟨m, by simp [hbefore m (by omega), hm, hlt], fun l hl => ?_⟩
      simp [hbefore l (by omega), hbefore' l hl]
    · refine ⟨n, by simp [hn, hlt], fun l hl => ?_⟩
      simp [hbefore l hl, hbefore' l (by omega)]

/-- The first chain that starts with a key that does not point at the target
goes on with the shortest path from the table it points at. -/
theorem isFirst_firstVia {target : String} {key : Table × ForeignKey}
    (h : key.2.targetTable ≠ target) :
    IsFirst (fun n => s.firstVia (fun k => k.targetTable == target) n key)
      ((s.pathBetween key.2.targetTable target).map (key.2.hop key.1 :: ·)) := by
  have hzero : s.firstVia (fun k => k.targetTable == target) 0 key = none := by
    simp [firstVia, h]
  exact (isFirst_search s _ key.2.targetTable).later hzero fun n => firstVia_succ n key

/-- A key that does not point at the target gives one more chain to choose
from. -/
theorem shortestVia_cons {target : String} (best : Option (List Hop)) {key : Table × ForeignKey}
    (keys : List (Table × ForeignKey)) (h : key.2.targetTable ≠ target) :
    s.shortestVia target best (key :: keys) =
      s.shortestVia target
        (shorter best ((s.pathBetween key.2.targetTable target).map (key.2.hop key.1 :: ·)))
        keys := by
  obtain ⟨t, k⟩ := key
  rw [shortestVia, if_neg h]
  cases s.pathBetween k.targetTable target <;> cases best <;> rfl

/-- One key after the other: with `best` as the first hit of the keys before,
the result is the first hit of all keys.  No key before points at the target,
as the choice ends with such a key. -/
theorem isFirst_shortestVia (target : String) {f : Nat → Option (List Hop)}
    {best : Option (List Hop)} (hf : Sized f) (hzero : f 0 = none) (hbest : IsFirst f best)
    (keys : List (Table × ForeignKey)) :
    IsFirst (fun n => (f n).or (s.firstOf (fun k => k.targetTable == target) n keys))
      (s.shortestVia target best keys) := by
  induction keys generalizing f best with
  | nil => exact hbest.congr fun n _ => Option.or_none.symm
  | cons key keys ih =>
    by_cases hdirect : key.2.targetTable = target
    · have hfound : s.shortestVia target best (key :: keys) = some [key.2.hop key.1] := by
        obtain ⟨t, k⟩ := key
        rw [shortestVia, if_pos hdirect]
      rw [hfound]
      refine ⟨0, ?_, fun m hm => absurd hm (Nat.not_lt_zero m)⟩
      simp [hzero, firstOf_cons, firstVia, hdirect]
    · rw [shortestVia_cons best keys hdirect]
      -- this key joins the keys before
      have hboth := isFirst_or hf (sized_firstVia key) hbest (isFirst_firstVia (s := s) hdirect)
      have hzero' : (f 0).or (s.firstVia (fun k => k.targetTable == target) 0 key) = none := by
        simp [hzero, firstVia, hdirect]
      refine (ih (hf.or (sized_firstVia key)) hzero' hboth).congr fun n _ => ?_
      rw [firstOf_cons, Option.or_assoc]

theorem map_reverse_reverse (path : Option (List Hop)) :
    (path.map List.reverse).map List.reverse = path := by
  cases path <;> simp

theorem isFirst_pathFromAlias (s : Schema) (label target : String) :
    IsFirst
      (fun n => s.firstOf (fun k => k.targetTable == target) n
        (s.keys.filter fun (t, k) => k.sourceAlias t == label))
      ((s.pathFromAlias label target).map List.reverse) := by
  -- before the first key there is nothing to choose from
  have hsized : Sized fun _ => none := fun n hops h => by cases h
  have hnone : IsFirst (fun _ => (none : Option (List Hop))) none := fun _ => rfl
  have hfirst := isFirst_shortestVia (s := s) target hsized rfl hnone
    (s.keys.filter fun (t, k) => k.sourceAlias t == label)
  simp only [Option.none_or] at hfirst
  rw [pathFromAlias, map_reverse_reverse]
  exact hfirst

/-! ## §4. From a child to a table. -/

/-- A chain of keys from a child with that alias to the table `target`.  The
alias is the one that the first key gives its table. -/
def LeadsFromAlias (s : Schema) (label target : String) (chain : List (Table × ForeignKey)) :
    Prop :=
  (∃ t ∈ s.tables, ∃ k ∈ t.foreignKeys, ∃ rest, chain = (t, k) :: rest ∧
      k.sourceAlias t = label ∧ s.Follows k.targetTable rest) ∧
    ∃ last, chain.getLast? = some last ∧ last.2.targetTable = target

theorem leadsFromAlias_iff {label target : String} {chain : List (Table × ForeignKey)} :
    s.LeadsFromAlias label target chain ↔
      s.IsChainVia (fun k => k.targetTable == target)
        (s.keys.filter fun (t, k) => k.sourceAlias t == label) chain := by
  constructor
  · rintro ⟨⟨t, ht, k, hk, rest, rfl, halias, hrest⟩, last, hlast, htarget⟩
    rw [List.getLast?_cons] at hlast
    cases hlast
    have hmem : (t, k) ∈ s.keys.filter fun (t, k) => k.sourceAlias t == label :=
      List.mem_filter.2 ⟨mem_keys_iff.2 ⟨ht, hk⟩, by simpa using halias⟩
    exact ⟨(t, k), hmem, rest, ⟨hrest, by simpa using htarget⟩, rfl⟩
  · rintro ⟨⟨t, k⟩, hmem, rest, ⟨hrest, htarget⟩, rfl⟩
    obtain ⟨hkey, halias⟩ := List.mem_filter.1 hmem
    obtain ⟨ht, hk⟩ := mem_keys_iff.1 hkey
    refine ⟨⟨t, ht, k, hk, rest, rfl, by simpa using halias, hrest⟩, _, List.getLast?_cons, ?_⟩
    simpa using htarget

/-- Read from the end, a chain from a child starts with the key that points at
the target and ends with a key of the child. -/
theorem LeadsFromAlias.ends {label target : String} {chain : List (Table × ForeignKey)}
    (h : s.LeadsFromAlias label target chain) :
    (∃ first, (hopsOf chain).reverse.head? = some first ∧ first.target = target) ∧
      ∃ t k, (t, k) ∈ s.keys ∧ k.sourceAlias t = label ∧
        (hopsOf chain).reverse.getLast? = some (k.hop t) := by
  obtain ⟨⟨t, ht, k, hk, rest, rfl, halias, -⟩, last, hlast, htarget⟩ := h
  refine ⟨⟨last.2.hop last.1, ?_, htarget⟩, t, k, mem_keys_iff.2 ⟨ht, hk⟩, halias, ?_⟩
  · rw [List.head?_reverse, hopsOf, List.getLast?_map, hlast]
    rfl
  · rw [List.getLast?_reverse]
    rfl

/-- **A path from a child is a shortest chain of keys**, listed from the table
it leads to, and there is one just when there is a chain.  Each of the searches
that it is made from ends in every schema, after at most one level more than
there are keys. -/
theorem pathFromAlias_shortest (s : Schema) (label target : String) :
    ((s.pathFromAlias label target).isSome ↔ ∃ chain, s.LeadsFromAlias label target chain) ∧
    (∀ hops, s.pathFromAlias label target = some hops →
      (∃ chain, s.LeadsFromAlias label target chain ∧ hops = (hopsOf chain).reverse) ∧
        (∃ first, hops.head? = some first ∧ first.target = target) ∧
        (∃ t k, (t, k) ∈ s.keys ∧ k.sourceAlias t = label ∧ hops.getLast? = some (k.hop t)) ∧
        ∀ chain, s.LeadsFromAlias label target chain → hops.length ≤ chain.length) ∧
    ∀ child, ∃ levels ≤ s.keys.length + 1,
      s.SearchEnds (fun k => k.targetTable == target) levels (.start child)
        (s.pathBetween child target) := by
  have hfirst := isFirst_pathFromAlias s label target
  refine ⟨?_, fun hops hhops => ?_, fun child => searchEnds_search s _ child⟩
  · simp only [leadsFromAlias_iff]
    rw [← isSome_iff_of_isFirst hfirst, Option.isSome_map]
  · rw [hhops, Option.map_some] at hfirst
    obtain ⟨⟨chain, hchain, hreverse⟩, hshortest⟩ := shortest_of_isFirst hfirst
    have hhops : hops = (hopsOf chain).reverse := by rw [← hreverse, List.reverse_reverse]
    have hleads := leadsFromAlias_iff.2 hchain
    obtain ⟨hhead, hlast⟩ := hleads.ends
    rw [← hhops] at hhead hlast
    refine ⟨⟨chain, hleads, hhops⟩, hhead, hlast, fun other hother => ?_⟩
    rw [← List.length_reverse]
    exact hshortest other (leadsFromAlias_iff.1 hother)

/-- Two tables share the alias `copy`, and the longer of the two chains is
found first; the shorter one is chosen and read downwards.  The two tables form
a cycle, in which the search for another table ends as well. -/
theorem pathFromAlias_shortest_of_two :
    let s : Schema :=
      { tables :=
          [{ tableName := "piece"
             foreignKeys := [{ fieldName := "itemId", targetTable := "item"
                               tableAlias := some "copy" }] },
           { tableName := "item"
             foreignKeys := [{ fieldName := "holdingId", targetTable := "holding"
                               tableAlias := some "copy" },
               { fieldName := "pieceId", targetTable := "piece" }] },
           { tableName := "holding"
             foreignKeys := [{ fieldName := "instanceId", targetTable := "instance" }] }] }
    s.pathFromAlias "copy" "instance" =
        some [⟨"holding", "instanceId", "instance"⟩, ⟨"item", "holdingId", "holding"⟩] ∧
      (∀ chain, s.LeadsFromAlias "copy" "instance" chain → 2 ≤ chain.length) ∧
      ∃ levels ≤ 5,
        s.SearchEnds (fun k => k.targetTable == "shelf") levels (.start "piece") none := by
  intro s
  have hpath : s.pathFromAlias "copy" "instance" =
      some [⟨"holding", "instanceId", "instance"⟩, ⟨"item", "holdingId", "holding"⟩] := by
    decide +kernel
  have hnothing : s.pathBetween "piece" "shelf" = none := by decide +kernel
  refine ⟨hpath, ((pathFromAlias_shortest s "copy" "instance").2.1 _ hpath).2.2.2, ?_⟩
  rw [← hnothing]
  exact (pathFromAlias_shortest s "copy" "shelf").2.2 "piece"

/-! ## §5. What paths are made of. -/

theorem tableName_of_mem_keysOf {name : String} {key : Table × ForeignKey}
    (h : key ∈ s.keysOf name) : key.1.tableName = name := by
  simpa using List.find?_some (mem_keysOf_iff.1 h).1

theorem exists_chain_of_pathToAlias {source label : String} {hops : List Hop}
    (h : s.pathToAlias source label = some hops) :
    ∃ chain, s.IsChainVia (fun k => k.targetAlias == label) (s.keysOf source) chain ∧
      hops = hopsOf chain := by
  have hfirst : IsFirst _ (s.pathToAlias source label) := isFirst_search s _ source
  rw [h] at hfirst
  exact (shortest_of_isFirst hfirst).1

theorem exists_chain_of_pathFromAlias {label target : String} {hops : List Hop}
    (h : s.pathFromAlias label target = some hops) :
    ∃ chain, s.IsChainVia (fun k => k.targetTable == target)
        (s.keys.filter fun (t, k) => k.sourceAlias t == label) chain ∧
      hops = (hopsOf chain).reverse := by
  have hfirst := isFirst_pathFromAlias s label target
  rw [h, Option.map_some] at hfirst
  obtain ⟨chain, hchain, hreverse⟩ := (shortest_of_isFirst hfirst).1
  exact ⟨chain, hchain, by rw [← hreverse, List.reverse_reverse]⟩

/-- A chain is made of declared keys. -/
theorem IsChainVia.declares {chain : List (Table × ForeignKey)}
    (h : s.IsChainVia wanted starts chain) (hstarts : starts ⊆ s.keys) :
    ∀ hop ∈ hopsOf chain, s.Declares hop := by
  obtain ⟨key, hkey, rest, ⟨hrest, -⟩, rfl⟩ := h
  have hall : key :: rest ⊆ s.keys := List.cons_subset.2 ⟨hstarts hkey, hrest.subset_keys⟩
  intro hop hmem
  obtain ⟨⟨t, k⟩, hin, rfl⟩ := List.mem_map.1 hmem
  obtain ⟨ht, hk⟩ := mem_keys_iff.1 (hall hin)
  exact ⟨t, ht, k, hk, rfl⟩

/-- A chain leads from the table of its first key to the one that its last key
points at. -/
theorem Follows.connects {key : Table × ForeignKey} {rest : List (Table × ForeignKey)}
    (h : s.Follows key.2.targetTable rest) :
    Connects key.1.tableName ((hopsOf (key :: rest)).map .up)
      (rest.getLast?.getD key).2.targetTable := by
  induction rest generalizing key with
  | nil => exact ⟨rfl, rfl⟩
  | cons next rest ih =>
    obtain ⟨hnext, hrest⟩ := follows_cons_iff.1 h
    have hgoes := ih hrest
    rw [tableName_of_mem_keysOf hnext] at hgoes
    rw [List.getLast?_cons]
    exact ⟨rfl, hgoes⟩

theorem declares_of_pathToAlias {source label : String} {hops : List Hop}
    (h : s.pathToAlias source label = some hops) : ∀ hop ∈ hops, s.Declares hop := by
  obtain ⟨chain, hchain, rfl⟩ := exists_chain_of_pathToAlias h
  exact hchain.declares (keysOf_subset_keys source)

theorem declares_of_pathFromAlias {target label : String} {hops : List Hop}
    (h : s.pathFromAlias label target = some hops) : ∀ hop ∈ hops, s.Declares hop := by
  obtain ⟨chain, hchain, rfl⟩ := exists_chain_of_pathFromAlias h
  intro hop hmem
  exact hchain.declares List.filter_sublist.subset hop (List.mem_reverse.1 hmem)

/-- The chain to a parent starts at the table, and each key belongs to the
table that the key before it points at. -/
theorem connects_of_pathToAlias {source label : String} {hops : List Hop}
    (h : s.pathToAlias source label = some hops) :
    ∃ parent, Connects source (hops.map .up) parent := by
  obtain ⟨chain, ⟨key, hkey, rest, ⟨hrest, -⟩, rfl⟩, rfl⟩ := exists_chain_of_pathToAlias h
  have hconnects := hrest.connects
  rw [tableName_of_mem_keysOf hkey] at hconnects
  exact ⟨_, hconnects⟩

/-- The chain to a child starts at the table as well, and goes down key by
key. -/
theorem connects_of_pathFromAlias {target label : String} {hops : List Hop}
    (h : s.pathFromAlias label target = some hops) :
    ∃ child, Connects target (hops.map .down) child := by
  obtain ⟨chain, ⟨key, -, rest, ⟨hrest, htarget⟩, rfl⟩, rfl⟩ := exists_chain_of_pathFromAlias h
  rw [beq_iff_eq] at htarget
  -- the chain is found from the child upwards
  have hdown := hrest.connects.back
  rw [htarget, List.map_map, ← List.map_reverse] at hdown
  exact ⟨key.1.tableName, hdown⟩

/-! ## §6. Both directions. -/

/-- Only what is wanted of declared keys counts. -/
theorem firstOf_congr {wanted' : ForeignKey → Bool}
    (h : ∀ key ∈ s.keys, wanted key.2 = wanted' key.2) (n : Nat) (hstarts : starts ⊆ s.keys) :
    s.firstOf wanted n starts = s.firstOf wanted' n starts := by
  induction n generalizing starts with
  | zero =>
    induction starts with
    | nil => rfl
    | cons key starts ih =>
      obtain ⟨hkey, hstarts⟩ := List.cons_subset.1 hstarts
      rw [firstOf_cons, firstOf_cons, ih hstarts, firstVia, firstVia, h key hkey]
  | succ n ihn =>
    induction starts with
    | nil => rfl
    | cons key starts ih =>
      obtain ⟨-, hstarts⟩ := List.cons_subset.1 hstarts
      rw [firstOf_cons, firstOf_cons, ih hstarts, firstVia_succ, firstVia_succ,
        ihn (keysOf_subset_keys _)]

/-- If no two tables have the same name and there are no aliases, a table's
name addresses the keys of that table. -/
theorem filter_sourceAlias_eq_keysOf (hnames : (s.tables.map Table.tableName).Nodup)
    (haliases : ∀ t ∈ s.tables, ∀ k ∈ t.foreignKeys, k.tableAlias = none) (name : String) :
    (s.keys.filter fun (t, k) => k.sourceAlias t == name) = s.keysOf name := by
  obtain ⟨tables⟩ := s
  induction tables with
  | nil => rfl
  | cons t tables ih =>
    obtain ⟨hfirst, hnames⟩ := List.nodup_cons.1 hnames
    obtain ⟨hnone, haliases⟩ := List.forall_mem_cons.1 haliases
    have halias : ∀ k ∈ t.foreignKeys, k.sourceAlias t = t.tableName := by
      intro k hk
      rw [ForeignKey.sourceAlias, hnone k hk, Option.getD_none]
    have hkeys : (⟨t :: tables⟩ : Schema).keys =
        t.foreignKeys.map (fun k => (t, k)) ++ (⟨tables⟩ : Schema).keys := rfl
    rw [hkeys, List.filter_append, ih hnames haliases, List.filter_map]
    show (t.foreignKeys.filter fun k => k.sourceAlias t == name).map _ ++ _ = _
    unfold keysOf table?
    dsimp only
    rw [List.find?_cons]
    by_cases hname : t.tableName = name
    · -- all keys of this table, and no other table has its name
      have hall : (t.foreignKeys.filter fun k => k.sourceAlias t == name) = t.foreignKeys :=
        List.filter_eq_self.2 fun k hk => by simp [halias k hk, hname]
      have hother : tables.find? (fun t => t.tableName == name) = none := by
        rw [List.find?_eq_none]
        intro other hmem hsame
        exact hfirst (List.mem_map.2 ⟨other, hmem, by simpa [hname] using hsame⟩)
      simp [hall, hname, hother]
    · have hnothing : (t.foreignKeys.filter fun k => k.sourceAlias t == name) = [] :=
        List.filter_eq_nil_iff.2 fun k hk => by simp [halias k hk, hname]
      have hbeq : (t.tableName == name) = false := by simpa using hname
      simp [hnothing, hbeq]

end Schema

/-! ## §7. Joins in both directions. -/

namespace Scope

theorem joinPath_eq_toParent_iff {scope : Scope} {qualifier : String} {hops : List Hop} :
    scope.joinPath qualifier = .ok (.toParent hops) ↔
      scope.schema.pathToAlias scope.table qualifier = some hops ∧
        scope.schema.pathFromAlias qualifier scope.table = none := by
  unfold joinPath
  split <;> simp_all

theorem joinPath_eq_toChild_iff {scope : Scope} {qualifier : String} {hops : List Hop} :
    scope.joinPath qualifier = .ok (.toChild hops) ↔
      scope.schema.pathToAlias scope.table qualifier = none ∧
        scope.schema.pathFromAlias qualifier scope.table = some hops := by
  unfold joinPath
  split <;> simp_all

end Scope

namespace Schema

/-- **Both directions use the same keys.**  If no two tables have the same name
and there are no aliases, the path from `a` to `b` that is found from the child
is the one found from the table, read the other way.  So the join from `a` up
to `b` and the one from `b` down to `a` follow the same keys. -/
theorem pathFromAlias_eq_reverse_pathToAlias (s : Schema)
    (hnames : (s.tables.map Table.tableName).Nodup)
    (haliases : ∀ t ∈ s.tables, ∀ k ∈ t.foreignKeys,
      k.targetTableAlias = none ∧ k.tableAlias = none) (a b : String) :
    s.pathFromAlias a b = (s.pathToAlias a b).map List.reverse ∧
      ∀ (scope : Scope) (hops : List Hop),
        { scope with schema := s, table := a }.joinPath b = .ok (.toParent hops) ↔
          { scope with schema := s, table := b }.joinPath a = .ok (.toChild hops.reverse) := by
  have hboth : ∀ a b, s.pathFromAlias a b = (s.pathToAlias a b).map List.reverse := by
    intro a b
    -- without aliases the same keys are wanted
    have hwanted : ∀ key ∈ s.keys, (key.2.targetAlias == b) = (key.2.targetTable == b) := by
      rintro ⟨t, k⟩ hkey
      obtain ⟨ht, hk⟩ := mem_keys_iff.1 hkey
      rw [ForeignKey.targetAlias, (haliases t ht k hk).1, Option.getD_none]
    have hto : IsFirst _ (s.pathToAlias a b) := isFirst_search s _ a
    have hfrom := isFirst_pathFromAlias s a b
    rw [filter_sourceAlias_eq_keysOf hnames (fun t ht k hk => (haliases t ht k hk).2)] at hfrom
    have hsame := hfrom.unique
      (hto.congr fun n _ => firstOf_congr hwanted n (keysOf_subset_keys a))
    rw [← hsame, map_reverse_reverse]
  refine ⟨hboth a b, fun scope hops => ?_⟩
  rw [Scope.joinPath_eq_toParent_iff, Scope.joinPath_eq_toChild_iff]
  dsimp only
  rw [hboth a b, hboth b a, Option.map_eq_none_iff, Option.map_eq_some_iff]
  simp [and_comm]

/-- Two keys of `a` lead on to `d` at the same distance, and one key leads back:
the earlier key is taken in both directions. -/
theorem pathFromAlias_eq_reverse_in_diamond :
    let s : Schema :=
      { tables :=
          [{ tableName := "c"
             foreignKeys := [{ fieldName := "f", targetTable := "d" }] },
           { tableName := "a"
             foreignKeys := [{ fieldName := "self", targetTable := "a" },
               { fieldName := "x", targetTable := "b" },
               { fieldName := "y", targetTable := "c" }] },
           { tableName := "b"
             foreignKeys := [{ fieldName := "back", targetTable := "a" },
               { fieldName := "g", targetTable := "d" }] }] }
    (s.tables.map Table.tableName).Nodup ∧
      (∀ t ∈ s.tables, ∀ k ∈ t.foreignKeys, k.targetTableAlias = none ∧ k.tableAlias = none) ∧
      s.pathToAlias "a" "d" = some [⟨"a", "x", "b"⟩, ⟨"b", "g", "d"⟩] ∧
      s.pathFromAlias "a" "d" = some [⟨"b", "g", "d"⟩, ⟨"a", "x", "b"⟩] := by
  intro s
  have hnames : (s.tables.map Table.tableName).Nodup := by decide +kernel
  have haliases : ∀ t ∈ s.tables, ∀ k ∈ t.foreignKeys,
      k.targetTableAlias = none ∧ k.tableAlias = none := by decide +kernel
  have hto : s.pathToAlias "a" "d" = some [⟨"a", "x", "b"⟩, ⟨"b", "g", "d"⟩] := by
    decide +kernel
  refine ⟨hnames, haliases, hto, ?_⟩
  rw [(pathFromAlias_eq_reverse_pathToAlias s hnames haliases "a" "d").1, hto]
  rfl

end Schema

end CqlToSql
