/-
  CqlToSql.Proofs.Schema.Chain
  ────────────────────────────
  **Foreign keys and the tables between which they lead.**  A `Link` is a key
  with the direction in which it is followed:

      Connects first links last  — the links lead from table to table
      s.Declares hop             — the hop is along a key of the schema
-/
import CqlToSql.Schema.Chain

namespace CqlToSql

/-! ## §1. Links. -/

/-- A foreign key as it is followed from one record to another. -/
inductive Link where
  /-- From the child to the parent. -/
  | up (hop : Hop)
  /-- From the parent to the child. -/
  | down (hop : Hop)
  deriving Repr, DecidableEq

namespace Link

/-- The foreign key. -/
def hop : Link → Hop
  | .up h => h
  | .down h => h

/-- The table that the link starts at. -/
def source : Link → String
  | .up h => h.table
  | .down h => h.target

/-- The table that the link leads to. -/
def target : Link → String
  | .up h => h.target
  | .down h => h.table

/-- The same key, followed in the other direction. -/
def back : Link → Link
  | .up h => .down h
  | .down h => .up h

theorem source_back (link : Link) : link.back.source = link.target := by
  cases link <;> rfl

theorem target_back (link : Link) : link.back.target = link.source := by
  cases link <;> rfl

end Link

/-- The links lead from the first table to the last one, each starting at the
table where the link before it ends. -/
def Connects : String → List Link → String → Prop
  | first, [], last => first = last
  | first, link :: links, last => link.source = first ∧ Connects link.target links last

theorem Connects.append {first middle last : String} {links others : List Link}
    (h : Connects first links middle) (ho : Connects middle others last) :
    Connects first (links ++ others) last := by
  induction links generalizing first with
  | nil =>
    have hsame : first = middle := h
    rw [hsame]
    exact ho
  | cons link links ih => exact ⟨h.1, ih h.2⟩

/-- A chain of links is followed back to where it starts. -/
theorem Connects.back {first last : String} {links : List Link} (h : Connects first links last) :
    Connects last (links.map Link.back).reverse first := by
  induction links generalizing first with
  | nil => exact Eq.symm h
  | cons link links ih =>
    rw [List.map_cons, List.reverse_cons]
    exact (ih h.2).append ⟨link.source_back, link.target_back.trans h.1⟩

/-- The last table is the one that the last link leads to. -/
theorem Connects.target_getLast {first last : String} {links : List Link} {link : Link}
    (h : Connects first links last) (hlast : links.getLast? = some link) : link.target = last := by
  induction links generalizing first with
  | nil => cases hlast
  | cons l links ih =>
    cases links with
    | nil =>
      cases hlast
      exact h.2
    | cons l' links =>
      rw [List.getLast?_cons_cons] at hlast
      exact ih h.2 hlast

/-! ## §2. Declared keys. -/

namespace Schema

open CqlToSql.Text

variable {s : Schema}

/-- The hop is along a foreign key of one of the tables. -/
def Declares (s : Schema) (h : Hop) : Prop :=
  ∃ t ∈ s.tables, ∃ k ∈ t.foreignKeys, h = k.hop t

theorem mem_of_table? {name : String} {t : Table} (h : s.table? name = some t) : t ∈ s.tables :=
  List.mem_of_find?_eq_some h

theorem mem_keys_iff {t : Table} {k : ForeignKey} :
    (t, k) ∈ s.keys ↔ t ∈ s.tables ∧ k ∈ t.foreignKeys := by
  simp only [keys, List.mem_flatMap, List.mem_map, Prod.mk.injEq]
  grind

/-- A name or an alias addresses a table that is declared, or is the target of
a declared key. -/
theorem tableForAlias_declared {label table : String} (h : s.tableForAlias label = some table) :
    (∃ t ∈ s.tables, t.tableName = table) ∨
      ∃ t ∈ s.tables, ∃ k ∈ t.foreignKeys, k.targetTable = table := by
  unfold tableForAlias at h
  split at h
  · rename_i t ht
    cases h
    exact .inl ⟨t, mem_of_table? ht, rfl⟩
  · obtain ⟨⟨t, k⟩, hmem, hfound⟩ := List.exists_of_findSome?_eq_some h
    obtain ⟨ht, hk⟩ := mem_keys_iff.1 hmem
    dsimp only at hfound
    split at hfound
    · cases hfound
      exact .inr ⟨t, ht, k, hk, rfl⟩
    · split at hfound
      · cases hfound
        exact .inl ⟨t, ht, rfl⟩
      · cases hfound

/-! ## §3. Checked declarations. -/

theorem isIdentifier_of_checkKeys {table : String} {keys : List ForeignKey}
    (h : checkKeys table keys = .ok ()) : ∀ k ∈ keys, isIdentifier k.targetTable = true := by
  induction keys with
  | nil => simp
  | cons key keys ih =>
    unfold checkKeys at h
    split at h
    · cases h
    · split at h
      · cases h
      · rename_i hident
        intro k hk
        rcases List.mem_cons.1 hk with rfl | hk
        · simpa using hident
        · exact ih h k hk

/-- A checked schema has identifiers for its tables and the targets of keys. -/
theorem isIdentifier_of_checkTables {tables : List Table} (h : checkTables tables = .ok ()) :
    ∀ t ∈ tables, isIdentifier t.tableName = true ∧
      ∀ k ∈ t.foreignKeys, isIdentifier k.targetTable = true := by
  induction tables with
  | nil => simp
  | cons table tables ih =>
    unfold checkTables at h
    split at h
    · cases h
    · rename_i hident
      split at h
      · cases h
      · rename_i hkeys
        intro t ht
        rcases List.mem_cons.1 ht with rfl | ht
        · exact ⟨by simpa using hident, isIdentifier_of_checkKeys hkeys⟩
        · exact ih h t ht

end Schema

end CqlToSql
