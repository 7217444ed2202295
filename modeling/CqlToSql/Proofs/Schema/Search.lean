/-
  CqlToSql.Proofs.Schema.Search
  ─────────────────────────────
  **A search finds the first of the shortest chains.**  Chains of one length
  are ordered by the places of their keys in the declarations, the first key
  first, and the first of them is found by trying the keys in turn:

      firstOf wanted n starts  — the first chain to a wanted key that starts
                                 with one of the keys `starts` and has `n`
                                 keys after that

  A search level by level comes to the same chain, although it enters each
  table once: from a table that it leaves out, no wanted key is nearer than
  from the frontier (`Covers`).  It is one level that makes the step
  (`Covers.next`), and the run follows the search itself
  (`isFirst_searchFrom`).

  A search comes to its end (`SearchEnds`): each level but the last enters a
  table that a key points at, and none a second time, so there is at most one
  level more than there are keys.
-/
import CqlToSql.Proofs.Schema.Chain

namespace CqlToSql

/-! ## §1. The first hit of a sequence. -/

section FirstHit

variable {α : Type} {f g : Nat → Option α} {a : α} {r r' : Option α}

/-- What the first number gives that gives something. -/
def IsFirst (f : Nat → Option α) : Option α → Prop
  | none => ∀ n, f n = none
  | some a => ∃ n, f n = some a ∧ ∀ m < n, f m = none

theorem IsFirst.unique (h : IsFirst f r) (h' : IsFirst f r') : r = r' := by
  match r, r' with
  | none, none => rfl
  | none, some b =>
    obtain ⟨n, hn, -⟩ := h'
    exact absurd hn (by rw [h n]; simp)
  | some a, none =>
    obtain ⟨n, hn, -⟩ := h
    exact absurd hn (by rw [h' n]; simp)
  | some a, some b =>
    obtain ⟨n, hn, hbefore⟩ := h
    obtain ⟨m, hm, hbefore'⟩ := h'
    -- neither of the two numbers is before the other
    have hle : ¬ n < m := fun hlt => by simp [hbefore' n hlt] at hn
    have hge : ¬ m < n := fun hlt => by simp [hbefore m hlt] at hm
    obtain rfl : n = m := by omega
    rw [← hn, ← hm]

/-- Sequences that agree up to their first hit have the same one. -/
theorem IsFirst.congr (h : IsFirst f r) (hfg : ∀ n, (∀ m < n, f m = none) → f n = g n) :
    IsFirst g r := by
  match r with
  | none => exact fun n => (hfg n fun m _ => h m).symm.trans (h n)
  | some a =>
    obtain ⟨n, hn, hbefore⟩ := h
    refine ⟨n, (hfg n hbefore).symm.trans hn, fun m hm => ?_⟩
    exact (hfg m fun l hl => hbefore l (by omega)).symm.trans (hbefore m hm)

/-- A sequence that begins with nothing and goes on like another one has its
first hit one place later. -/
theorem IsFirst.later {β : Type} {g : Nat → Option β} {c : α → β} (h : IsFirst f r)
    (hzero : g 0 = none) (hsucc : ∀ n, g (n + 1) = (f n).map c) : IsFirst g (r.map c) := by
  match r with
  | none =>
    intro n
    cases n with
    | zero => exact hzero
    | succ n => rw [hsucc, h n, Option.map_none]
  | some a =>
    obtain ⟨n, hn, hbefore⟩ := h
    refine ⟨n + 1, by rw [hsucc, hn, Option.map_some], fun m hm => ?_⟩
    cases m with
    | zero => exact hzero
    | succ m => rw [hsucc, hbefore m (by omega), Option.map_none]

end FirstHit

/-- The table that a step leads to. -/
def Step.reached (step : Step) : Reached :=
  { table := step.key.targetTable, chain := step.chain }

namespace Schema

variable {s : Schema} {wanted : ForeignKey → Bool}

/-! ## §2. Chains of keys. -/

/-- The foreign keys of the first table of that name, each with the table. -/
def keysOf (s : Schema) (name : String) : List (Table × ForeignKey) :=
  match s.table? name with
  | none => []
  | some t => t.foreignKeys.map fun k => (t, k)

theorem mem_keysOf_iff {name : String} {key : Table × ForeignKey} :
    key ∈ s.keysOf name ↔ s.table? name = some key.1 ∧ key.2 ∈ key.1.foreignKeys := by
  obtain ⟨t, k⟩ := key
  unfold keysOf
  split <;> grind

theorem keysOf_subset_keys (name : String) : s.keysOf name ⊆ s.keys := by
  intro key hkey
  obtain ⟨htable, hmem⟩ := mem_keysOf_iff.1 hkey
  exact mem_keys_iff.2 ⟨mem_of_table? htable, hmem⟩

/-- The keys form a chain that starts at the table `source`: each belongs to
the first table of the name that the key before it points at. -/
def Follows (s : Schema) : String → List (Table × ForeignKey) → Prop
  | _, [] => True
  | source, key :: rest =>
    s.table? source = some key.1 ∧ key.2 ∈ key.1.foreignKeys ∧ s.Follows key.2.targetTable rest

/-- The hops along a chain of keys. -/
def hopsOf (chain : List (Table × ForeignKey)) : List Hop := chain.map fun key => key.2.hop key.1

theorem follows_cons_iff {source : String} {key : Table × ForeignKey}
    {rest : List (Table × ForeignKey)} :
    s.Follows source (key :: rest) ↔ key ∈ s.keysOf source ∧ s.Follows key.2.targetTable rest := by
  rw [Follows, mem_keysOf_iff, and_assoc]

theorem Follows.subset_keys {source : String} {chain : List (Table × ForeignKey)}
    (h : s.Follows source chain) : chain ⊆ s.keys := by
  induction chain generalizing source with
  | nil => simp
  | cons key chain ih =>
    obtain ⟨hkey, hrest⟩ := follows_cons_iff.1 h
    exact List.cons_subset.2 ⟨keysOf_subset_keys source hkey, ih hrest⟩

/-- The keys `rest` go on from `key`, and the last key of all is wanted. -/
def EndsWanted (s : Schema) (wanted : ForeignKey → Bool) (key : Table × ForeignKey)
    (rest : List (Table × ForeignKey)) : Prop :=
  s.Follows key.2.targetTable rest ∧ wanted (rest.getLast?.getD key).2 = true

/-! ## §3. The first chain of a length. -/

/-- The first chain to a wanted key that starts with `key` and has `n` keys
after it. -/
def firstVia (s : Schema) (wanted : ForeignKey → Bool) :
    (n : Nat) → (key : Table × ForeignKey) → Option (List Hop)
  | 0, key => if wanted key.2 then some [key.2.hop key.1] else none
  | n + 1, key =>
    ((s.keysOf key.2.targetTable).findSome? (s.firstVia wanted n)).map (key.2.hop key.1 :: ·)

/-- The first chain to a wanted key that starts with one of the keys `starts`
and has `n` keys after it. -/
def firstOf (s : Schema) (wanted : ForeignKey → Bool) (n : Nat)
    (starts : List (Table × ForeignKey)) : Option (List Hop) :=
  starts.findSome? (s.firstVia wanted n)

theorem firstVia_succ (n : Nat) (key : Table × ForeignKey) :
    s.firstVia wanted (n + 1) key =
      (s.firstOf wanted n (s.keysOf key.2.targetTable)).map (key.2.hop key.1 :: ·) := rfl

theorem firstOf_cons (n : Nat) (key : Table × ForeignKey) (starts : List (Table × ForeignKey)) :
    s.firstOf wanted n (key :: starts) =
      (s.firstVia wanted n key).or (s.firstOf wanted n starts) := by
  unfold firstOf
  rw [List.findSome?_cons]
  cases s.firstVia wanted n key <;> rfl

theorem exists_endsWanted_of_firstVia {n : Nat} {key : Table × ForeignKey} {hops : List Hop}
    (h : s.firstVia wanted n key = some hops) :
    ∃ rest, s.EndsWanted wanted key rest ∧ rest.length = n ∧ hops = hopsOf (key :: rest) := by
  induction n generalizing key hops with
  | zero =>
    unfold firstVia at h
    split at h
    · rename_i hwanted
      cases h
      exact ⟨[], ⟨trivial, hwanted⟩, rfl, rfl⟩
    · cases h
  | succ n ih =>
    rw [firstVia_succ, Option.map_eq_some_iff] at h
    obtain ⟨more, hmore, rfl⟩ := h
    obtain ⟨next, hnext, hvia⟩ := List.exists_of_findSome?_eq_some hmore
    obtain ⟨rest, ⟨hfollows, hwanted⟩, hlength, rfl⟩ := ih hvia
    refine ⟨next :: rest, ⟨follows_cons_iff.2 ⟨hnext, hfollows⟩, ?_⟩, by simp [hlength], rfl⟩
    rw [List.getLast?_cons]
    exact hwanted

theorem isSome_firstVia {key : Table × ForeignKey} {rest : List (Table × ForeignKey)}
    (h : s.EndsWanted wanted key rest) : (s.firstVia wanted rest.length key).isSome := by
  obtain ⟨hfollows, hwanted⟩ := h
  induction rest generalizing key with
  | nil =>
    have hwanted : wanted key.2 = true := hwanted
    simp [firstVia, hwanted]
  | cons next rest ih =>
    obtain ⟨hnext, hrest⟩ := follows_cons_iff.1 hfollows
    rw [List.getLast?_cons] at hwanted
    rw [List.length_cons, firstVia_succ, Option.isSome_map]
    exact List.findSome?_isSome_iff.2 ⟨next, hnext, ih hrest hwanted⟩

theorem exists_endsWanted_of_firstOf {n : Nat} {starts : List (Table × ForeignKey)}
    {hops : List Hop} (h : s.firstOf wanted n starts = some hops) :
    ∃ key ∈ starts, ∃ rest, s.EndsWanted wanted key rest ∧ rest.length = n ∧
      hops = hopsOf (key :: rest) := by
  obtain ⟨key, hkey, hvia⟩ := List.exists_of_findSome?_eq_some h
  exact ⟨key, hkey, exists_endsWanted_of_firstVia hvia⟩

theorem isSome_firstOf {starts : List (Table × ForeignKey)} {key : Table × ForeignKey}
    {rest : List (Table × ForeignKey)} (hkey : key ∈ starts) (h : s.EndsWanted wanted key rest) :
    (s.firstOf wanted rest.length starts).isSome :=
  List.findSome?_isSome_iff.2 ⟨key, hkey, isSome_firstVia h⟩

theorem length_of_firstOf {n : Nat} {starts : List (Table × ForeignKey)} {hops : List Hop}
    (h : s.firstOf wanted n starts = some hops) : hops.length = n + 1 := by
  obtain ⟨key, -, rest, -, hlength, rfl⟩ := exists_endsWanted_of_firstOf h
  simp [hopsOf, hlength]

/-! ## §4. One level of a search. -/

/-- The first chain to a wanted key that leads through the frontier and has
`n` keys after the first one behind the frontier. -/
def firstBeyond (s : Schema) (wanted : ForeignKey → Bool) (n : Nat) (frontier : List Reached) :
    Option (List Hop) :=
  frontier.findSome? fun r => (s.firstOf wanted n (s.keysOf r.table)).map (r.chain ++ ·)

theorem stepsFrom_eq (r : Reached) :
    s.stepsFrom r = (s.keysOf r.table).map fun key =>
      { key := key.2, chain := r.chain ++ [key.2.hop key.1] } := by
  unfold stepsFrom keysOf
  cases s.table? r.table with
  | none => rfl
  | some t => simp

/-- A wanted key among the next steps ends the first chain. -/
theorem find?_steps (l : SearchLevel) :
    ((s.steps l).find? fun step => wanted step.key).map Step.chain =
      s.firstBeyond wanted 0 l.frontier := by
  -- from one table of the frontier, key by key
  have hkeys : ∀ (r : Reached) (keys : List (Table × ForeignKey)),
      (keys.find? fun key => wanted key.2).map (fun key => r.chain ++ [key.2.hop key.1]) =
        (s.firstOf wanted 0 keys).map (r.chain ++ ·) := by
    intro r keys
    induction keys with
    | nil => rfl
    | cons key keys ih =>
      rw [firstOf_cons, List.find?_cons]
      cases hwanted : wanted key.2 with
      | true => simp [firstVia, hwanted]
      | false => simpa [firstVia, hwanted] using ih
  rw [steps, List.find?_flatMap, List.map_findSome?]
  unfold firstBeyond
  congr 1
  funext r
  rw [← hkeys, Function.comp_apply, stepsFrom_eq, List.find?_map, Option.map_map]
  rfl

/-- Chains that are one key longer lead through the next steps. -/
theorem firstBeyond_succ (n : Nat) (frontier : List Reached) :
    s.firstBeyond wanted (n + 1) frontier =
      s.firstBeyond wanted n ((frontier.flatMap s.stepsFrom).map Step.reached) := by
  induction frontier with
  | nil => rfl
  | cons r frontier ih =>
    -- the keys of one table, each with the chains that go on from it
    have hone : (s.firstOf wanted (n + 1) (s.keysOf r.table)).map (r.chain ++ ·) =
        s.firstBeyond wanted n ((s.stepsFrom r).map Step.reached) := by
      unfold firstBeyond
      rw [stepsFrom_eq, List.map_map, List.findSome?_map, firstOf, List.map_findSome?]
      congr 1
      funext key
      simp [firstVia_succ, Step.reached, Function.comp_def]
    rw [List.flatMap_cons, List.map_append, firstBeyond, List.findSome?_cons, hone]
    unfold firstBeyond at ih ⊢
    rw [List.findSome?_append, ← ih]
    cases List.findSome? _ ((s.stepsFrom r).map Step.reached) <;> rfl

/-- Steps that lead to a table for the second time, or to a visited one, can
be left out if nothing wanted is found from there. -/
theorem firstBeyond_fresh {n : Nat} {visited : List String} (steps : List Step)
    (h : ∀ name ∈ visited, s.firstOf wanted n (s.keysOf name) = none) :
    s.firstBeyond wanted n (fresh visited steps) =
      s.firstBeyond wanted n (steps.map Step.reached) := by
  unfold firstBeyond
  fun_induction fresh visited steps with
  | case1 => rfl
  | case2 visited step steps hvisited ih =>
    have hmem : step.key.targetTable ∈ visited := by simpa using hvisited
    rw [ih h, List.map_cons, List.findSome?_cons, Step.reached, h _ hmem]
    rfl
  | case3 visited step steps hvisited ih =>
    rw [List.map_cons, List.findSome?_cons, List.findSome?_cons, Step.reached]
    cases hfirst : s.firstOf wanted n (s.keysOf step.key.targetTable) with
    | some hops => rfl
    | none =>
      -- nothing is found from this table, so it may be left out from here on
      refine ih fun name hname => ?_
      rcases List.mem_cons.1 hname with rfl | hname
      · exact hfirst
      · exact h name hname

/-! ## §5. Level after level. -/

/-- As far as nothing wanted is found beyond the frontier, nothing wanted is
found from the visited tables. -/
def Covers (s : Schema) (wanted : ForeignKey → Bool) (l : SearchLevel) : Prop :=
  ∀ n, (∀ m ≤ n, s.firstBeyond wanted m l.frontier = none) →
    ∀ name ∈ l.visited, s.firstOf wanted n (s.keysOf name) = none

section Levels

variable {l : SearchLevel}

/-- The next level finds what the frontier finds one key later. -/
theorem Covers.firstBeyond_next (h : s.Covers wanted l) {n : Nat}
    (hn : ∀ m ≤ n, s.firstBeyond wanted m l.frontier = none) :
    s.firstBeyond wanted n (s.next l).frontier = s.firstBeyond wanted (n + 1) l.frontier := by
  show s.firstBeyond wanted n (fresh l.visited (s.steps l)) = _
  rw [firstBeyond_fresh _ (h n hn), firstBeyond_succ]
  rfl

/-- As far as nothing is found from the next level on, nothing is found from
this one on. -/
theorem Covers.firstBeyond_eq_none (h : s.Covers wanted l)
    (hzero : s.firstBeyond wanted 0 l.frontier = none) {n : Nat}
    (hn : ∀ m < n, s.firstBeyond wanted m (s.next l).frontier = none) :
    ∀ m ≤ n, s.firstBeyond wanted m l.frontier = none := by
  induction n with
  | zero =>
    intro m hm
    obtain rfl : m = 0 := by omega
    exact hzero
  | succ n ih =>
    have hbefore := ih fun m hm => hn m (by omega)
    intro m hm
    rcases Nat.lt_or_ge n m with hlt | hle
    · obtain rfl : m = n + 1 := by omega
      rw [← h.firstBeyond_next hbefore]
      exact hn n (by omega)
    · exact hbefore m hle

/-- The next level covers the tables that it enters and all that were visited
before. -/
theorem Covers.next (h : s.Covers wanted l) (hzero : s.firstBeyond wanted 0 l.frontier = none) :
    s.Covers wanted (s.next l) := by
  intro n hn name hname
  rcases List.mem_append.1 hname with hname | hname
  · obtain ⟨r, hr, rfl⟩ := List.mem_map.1 hname
    have hnone := List.findSome?_eq_none_iff.1 (hn n (Nat.le_refl n)) r hr
    simpa using hnone
  · exact h n (h.firstBeyond_eq_none hzero fun m hm => hn m (by omega)) name hname

/-- What is first found from the next level is first found from this one. -/
theorem Covers.isFirst_of_next (h : s.Covers wanted l)
    (hzero : s.firstBeyond wanted 0 l.frontier = none) {found : Option (List Hop)}
    (hnext : IsFirst (fun n => s.firstBeyond wanted n (s.next l).frontier) found) :
    IsFirst (fun n => s.firstBeyond wanted n l.frontier) found := by
  -- up to the first hit the two levels differ by one key
  have hsucc : IsFirst (fun n => s.firstBeyond wanted (n + 1) l.frontier) found :=
    hnext.congr fun n hn => h.firstBeyond_next (h.firstBeyond_eq_none hzero hn)
  have hlater := hsucc.later (g := fun n => s.firstBeyond wanted n l.frontier) (c := id) hzero
    fun n => Option.map_id_apply.symm
  rwa [Option.map_id_apply] at hlater

/-- A search finds the first of the shortest chains that lead through the
frontier. -/
theorem isFirst_searchFrom (h : s.Covers wanted l) :
    IsFirst (fun n => s.firstBeyond wanted n l.frontier) (s.searchFrom wanted l) := by
  fun_induction searchFrom s wanted l with
  | case1 l step hfind =>
    refine ⟨0, ?_, fun m hm => absurd hm (Nat.not_lt_zero m)⟩
    show s.firstBeyond wanted 0 l.frontier = _
    rw [← find?_steps, hfind]
    rfl
  | case2 l hfind hempty =>
    have hzero : s.firstBeyond wanted 0 l.frontier = none := by
      rw [← find?_steps, hfind]
      rfl
    -- from no table nothing is found
    refine h.isFirst_of_next hzero fun n => ?_
    rw [List.isEmpty_iff.1 hempty]
    rfl
  | case3 l hfind _ ih =>
    have hzero : s.firstBeyond wanted 0 l.frontier = none := by
      rw [← find?_steps, hfind]
      rfl
    exact h.isFirst_of_next hzero (ih (h.next hzero))

end Levels

/-- **A search gives the first of the shortest chains.** -/
theorem isFirst_search (s : Schema) (wanted : ForeignKey → Bool) (source : String) :
    IsFirst (fun n => s.firstOf wanted n (s.keysOf source)) (s.search wanted source) := by
  have hstart : ∀ n, s.firstBeyond wanted n (SearchLevel.start source).frontier =
      s.firstOf wanted n (s.keysOf source) := by
    intro n
    show s.firstBeyond wanted n [{ table := source, chain := [] }] = _
    rw [firstBeyond, List.findSome?_cons]
    cases s.firstOf wanted n (s.keysOf source) <;> rfl
  -- the only visited table is the frontier itself
  have hcovers : s.Covers wanted (.start source) := by
    intro n hn name hname
    rw [List.mem_singleton.1 hname, ← hstart]
    exact hn n (Nat.le_refl n)
  exact (isFirst_searchFrom hcovers).congr fun n _ => hstart n

/-! ## §6. The end of a search. -/

/-- Going on level by level from `l`, the search comes to its end after that
number of levels: a wanted key is found, or there is no table left to go on
from. -/
inductive SearchEnds (s : Schema) (wanted : ForeignKey → Bool) :
    (levels : Nat) → (l : SearchLevel) → (found : Option (List Hop)) → Prop
  | exhausted {l : SearchLevel} (h : l.frontier = []) : SearchEnds s wanted 0 l none
  | found {l : SearchLevel} {step : Step}
      (h : (s.steps l).find? (fun step => wanted step.key) = some step) :
      SearchEnds s wanted 1 l (some step.chain)
  | next {levels : Nat} {l : SearchLevel} {found : Option (List Hop)}
      (h : (s.steps l).find? (fun step => wanted step.key) = none)
      (hnext : SearchEnds s wanted levels (s.next l) found) :
      SearchEnds s wanted (levels + 1) l found

/-- There is at most one level more than there are tables left to enter. -/
theorem searchEnds_searchFrom (s : Schema) (wanted : ForeignKey → Bool) (l : SearchLevel) :
    ∃ levels ≤ (s.unvisited l.visited).length + 1,
      s.SearchEnds wanted levels l (s.searchFrom wanted l) := by
  fun_induction searchFrom s wanted l with
  | case1 l step hfind => exact ⟨1, by omega, .found hfind⟩
  | case2 l hfind hempty =>
    exact ⟨1, by omega, .next hfind (.exhausted (List.isEmpty_iff.1 hempty))⟩
  | case3 l hfind hempty ih =>
    obtain ⟨levels, hle, hends⟩ := ih
    have hlt := length_unvisited_next (s := s) (l := l) (by simpa using hempty)
    exact ⟨levels + 1, by omega, .next hfind hends⟩

/-- **A search ends**, after at most one level more than there are keys. -/
theorem searchEnds_search (s : Schema) (wanted : ForeignKey → Bool) (source : String) :
    ∃ levels ≤ s.keys.length + 1,
      s.SearchEnds wanted levels (.start source) (s.search wanted source) := by
  obtain ⟨levels, hle, hends⟩ := searchEnds_searchFrom s wanted (.start source)
  have hkeys : (s.unvisited (SearchLevel.start source).visited).length ≤ s.keys.length := by
    calc (s.unvisited [source]).length
        ≤ (s.keys.map fun key => key.2.targetTable).length := List.length_filter_le _ _
      _ = s.keys.length := List.length_map _
  exact ⟨levels, by omega, hends⟩

end Schema

end CqlToSql
