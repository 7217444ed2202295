/-
  CqlToSql.Proofs.Condition.ServerChoice
  ──────────────────────────────────────
  **A search term that stands alone.**  It is meant as a clause on each of
  the server's chosen indexes, one of which has to match:

      term   means   index₁ = term or … or indexₙ = term

  The chosen indexes are taken for fields of the searched table, and they are
  looked at after a term that addresses another table.  An index with a
  meaning of its own, one that is qualified with another table, and a term
  that is, are where the two sides part.

  Main statement: without these the translation of the term alone is that of
  the clauses, joined by `OR`, and fails just when one of them does.  With a
  qualified term the chosen indexes play no part.
-/
import CqlToSql.Proofs.Condition.Outcome
import Mathlib.Data.List.Forall2

namespace CqlToSql.Condition

open CqlToSql.Text

variable {scope : Scope} {c d : Clause} {f : CqlToSql.Field} {ix : FieldIndexes}
  {index sql : String}

/-! ## §1. Clauses that address the searched table. -/

/-- The index names a field of the searched table. -/
structure IsFieldIndex (scope : Scope) (index : String) : Prop where
  notAll : sameAsciiFold index allRecords = false
  notChoice : sameAsciiFold index serverChoice = false
  unqualified : scope.qualifier? index = none

theorem clause_of_isFieldIndex (h : IsFieldIndex scope c.index)
    (hterm : termQualifier? scope c.term = none) : clause scope c = field scope c.index c := by
  rw [clause_of_unqualified h.notAll h.unqualified, hterm]
  exact if_neg (by simp [h.notChoice])

/-- The server's choice is not the index of all records. -/
theorem notAll_of_serverChoice (h : sameAsciiFold index serverChoice = true) :
    sameAsciiFold index allRecords = false := by
  unfold sameAsciiFold at h ⊢
  rw [beq_iff_eq] at h
  rw [h]
  decide

/-! ## §2. The index of a clause on a field. -/

/-- A comparison does not depend on the index of its clause. -/
theorem comparison_of_same (hr : d.relation = c.relation) (ht : d.term = c.term)
    (h : (comparison c f ix).result = .ok sql) : (comparison d f ix).result = .ok sql := by
  obtain ⟨m, strategy, hm, hs, hsql⟩ := comparison_outcome h
  rw [← hr] at hm hs
  rw [result_comparison hm hs, ht]
  exact hsql

theorem field_of_same (hr : d.relation = c.relation) (ht : d.term = c.term)
    (h : (field scope index c).result = .ok sql) : (field scope index d).result = .ok sql := by
  obtain ⟨f, hf, -⟩ := field_outcome h
  cases hmod : elementModifier? c.relation.modifiers with
  | some found =>
    obtain ⟨declared, part, before, column, condition, hdecl, hcut, hcondition, rfl⟩ :=
      (field_eq_ok_iff_of_element hf hmod).1 h
    rw [← hr] at hmod
    exact (field_eq_ok_iff_of_element hf hmod).2 ⟨declared, part, before, column, condition, hdecl,
      hcut, comparison_of_same hr ht hcondition, rfl⟩
  | none =>
    rw [result_field_of_plain hf hmod] at h
    rw [← hr] at hmod
    rw [result_field_of_plain hf hmod]
    split at h
    · rw [if_pos ‹_›, hr, ht]
      exact h
    · rw [if_neg ‹_›]
      exact comparison_of_same hr ht h

/-- Clauses on several fields succeed just when each of them does. -/
theorem fields_eq_ok_iff {indexes parts : List String} :
    (fields scope c indexes).result = .ok parts ↔
      List.Forall₂ (fun index part => (field scope index c).result = .ok part) indexes parts := by
  induction indexes generalizing parts with
  | nil =>
    rw [List.forall₂_nil_left_iff]
    constructor
    · intro h
      cases h
      rfl
    · rintro rfl
      rfl
  | cons index indexes ih =>
    rw [List.forall₂_cons_left_iff]
    constructor
    · intro h
      obtain ⟨first, others, hfirst, hothers, rfl⟩ := fields_cons_outcome h
      exact ⟨first, others, hfirst, ih.1 hothers, rfl⟩
    · rintro ⟨first, others, hfirst, hothers, rfl⟩
      unfold fields
      exact Logged.result_bind_eq_ok_iff.2
        ⟨first, hfirst, Logged.result_bind_eq_ok_iff.2 ⟨others, ih.2 hothers, rfl⟩⟩

/-! ## §3. The server's choice. -/

theorem anyField_eq_ok_iff (hchoice : scope.serverChoice ≠ []) :
    (anyField scope c).result = .ok sql ↔
      ∃ parts, List.Forall₂ (fun index part => (field scope index c).result = .ok part)
        scope.serverChoice parts ∧ sql = joinWith " OR " parts := by
  constructor
  · intro h
    obtain ⟨parts, -, hparts, rfl⟩ := anyField_outcome h
    exact ⟨parts, fields_eq_ok_iff.1 hparts, rfl⟩
  · rintro ⟨parts, hparts, rfl⟩
    unfold anyField
    rw [if_neg (by simpa using hchoice)]
    exact Logged.result_bind_eq_ok_iff.2 ⟨parts, fields_eq_ok_iff.2 hparts, rfl⟩

/-- A clause on a chosen index that names a field is one on that field. -/
theorem forall₂_field_iff_clause (hterm : termQualifier? scope c.term = none)
    {indexes : List String} (hfields : ∀ index ∈ indexes, IsFieldIndex scope index)
    {parts : List String} :
    List.Forall₂ (fun index part => (field scope index c).result = .ok part) indexes parts ↔
      List.Forall₂ (fun index part => (clause scope { c with index := index }).result = .ok part)
        indexes parts := by
  have hpart : ∀ index ∈ indexes, ∀ part, (field scope index c).result = .ok part ↔
      (clause scope { c with index := index }).result = .ok part := by
    intro index hmem part
    rw [clause_of_isFieldIndex (c := { c with index := index }) (hfields index hmem) hterm]
    exact ⟨field_of_same rfl rfl, field_of_same rfl rfl⟩
  constructor
  · intro h
    exact ((List.forall₂_and_left _ _).2 ⟨hpart, h⟩).imp fun _ part hp => (hp.1 part).1 hp.2
  · intro h
    exact ((List.forall₂_and_left _ _).2 ⟨hpart, h⟩).imp fun _ part hp => (hp.1 part).2 hp.2

/-- **A term that stands alone is a clause on each of the chosen indexes**, if
these name fields of the searched table and the term addresses no other: it is
translated just when they all are, and to their conditions joined by `OR`.  A
term that addresses another table is translated without regard to the
choice. -/
theorem clause_serverChoice_iff (hchoice : scope.serverChoice ≠ [])
    (hindex : sameAsciiFold c.index serverChoice = true)
    (hq : scope.qualifier? c.index = none) :
    (termQualifier? scope c.term = none →
      (∀ index ∈ scope.serverChoice, IsFieldIndex scope index) →
      ∀ sql, (clause scope c).result = .ok sql ↔
        ∃ parts, List.Forall₂
          (fun index part => (clause scope { c with index := index }).result = .ok part)
          scope.serverChoice parts ∧ sql = joinWith " OR " parts) ∧
    (termQualifier? scope c.term ≠ none → ∀ choice,
      (clause { scope with serverChoice := choice } c).result = (clause scope c).result) := by
  have hclause := clause_of_unqualified (notAll_of_serverChoice hindex) hq
  constructor
  · intro hterm hfields sql
    rw [hclause, hterm]
    dsimp only
    rw [if_pos hindex, anyField_eq_ok_iff hchoice]
    simp only [forall₂_field_iff_clause hterm hfields]
  · intro hterm choice
    -- the qualifier of the term is looked at first, and the choice is left unread
    have hother : clause { scope with serverChoice := choice } c = _ :=
      clause_of_unqualified (notAll_of_serverChoice hindex) hq
    have hsame : termQualifier? { scope with serverChoice := choice } c.term
        = termQualifier? scope c.term := rfl
    obtain ⟨⟨qualifier, path⟩, hsome⟩ := Option.ne_none_iff_exists'.1 hterm
    rw [hclause, hother, hsame, hsome]
    rfl

/-- Two tables, of which the second refers to the first, and two chosen
indexes. -/
def choiceScope : Scope :=
  { table := "tablea"
    columns := ["tablea.jsonb"]
    schema :=
      { tables :=
        [{ tableName := "tablea" },
         { tableName := "tableb",
           foreignKeys := [{ fieldName := "tableaId", targetTable := "tablea" }] }] }
    serverChoice := ["ref", "name"]
    mode := .permissive }

theorem isFieldIndex_choiceScope : ∀ index ∈ choiceScope.serverChoice,
    IsFieldIndex choiceScope index := by
  intro index hmem
  have hcases : index = "ref" ∨ index = "name" := by simpa [choiceScope] using hmem
  rcases hcases with rfl | rfl
  · exact ⟨by decide, by decide, by decide +kernel⟩
  · exact ⟨by decide, by decide, by decide +kernel⟩

/-- The term may hold a dot, and the index may be in any letter case. -/
theorem clause_serverChoice_dotted_term :
    (clause choiceScope ⟨"CQL.serverchoice", ⟨"==", []⟩, "x.y"⟩).result = .ok
      ("lower(f_unaccent(tablea.jsonb->>'ref')) LIKE lower(f_unaccent('x.y')) OR "
        ++ "lower(f_unaccent(tablea.jsonb->>'name')) LIKE lower(f_unaccent('x.y'))") ∧
    (clause { choiceScope with serverChoice := ["title"] }
        ⟨"cql.serverChoice", ⟨"=", []⟩, "tableb.tableaId"⟩).result
      = (clause choiceScope ⟨"cql.serverChoice", ⟨"=", []⟩, "tableb.tableaId"⟩).result := by
  constructor
  · refine ((clause_serverChoice_iff (by decide) (by decide) (by decide +kernel)).1
      (by decide +kernel) isFieldIndex_choiceScope _).2 ⟨[
        "lower(f_unaccent(tablea.jsonb->>'ref')) LIKE lower(f_unaccent('x.y'))",
        "lower(f_unaccent(tablea.jsonb->>'name')) LIKE lower(f_unaccent('x.y'))"], ?_, ?_⟩
    · refine .cons ?_ (.cons ?_ .nil)
      · exact Logged.result_eq_ok_iff.2 (by decide +kernel)
      · exact Logged.result_eq_ok_iff.2 (by decide +kernel)
    · decide +kernel
  · exact (clause_serverChoice_iff (by decide) (by decide) (by decide +kernel)).2
      (by decide +kernel) ["title"]

/-- A term that addresses another table is compared with a field of the name
`serverChoice`, and not with the chosen ones; a clause on each of these would
compare them. -/
theorem clause_serverChoice_qualified_term :
    (clause choiceScope ⟨"cql.serverChoice", ⟨"=", []⟩, "tableb.tableaId"⟩).result = .ok
      "tablea.jsonb->'cql'->>'serverChoice' IN  ( SELECT tableb.jsonb->>'tableaId' from tableb)" ∧
    (clause choiceScope ⟨"ref", ⟨"=", []⟩, "tableb.tableaId"⟩).result = .ok
      "tablea.jsonb->>'ref' IN  ( SELECT tableb.jsonb->>'tableaId' from tableb)" ∧
    (clause choiceScope ⟨"name", ⟨"=", []⟩, "tableb.tableaId"⟩).result = .ok
      "tablea.jsonb->>'name' IN  ( SELECT tableb.jsonb->>'tableaId' from tableb)" ∧
    "tablea.jsonb->'cql'->>'serverChoice' IN  ( SELECT tableb.jsonb->>'tableaId' from tableb)" ≠
      joinWith " OR "
        ["tablea.jsonb->>'ref' IN  ( SELECT tableb.jsonb->>'tableaId' from tableb)",
         "tablea.jsonb->>'name' IN  ( SELECT tableb.jsonb->>'tableaId' from tableb)"] := by
  refine ⟨?_, ?_, ?_, by decide +kernel⟩
  · exact Logged.result_eq_ok_iff.2 (by decide +kernel)
  · exact Logged.result_eq_ok_iff.2 (by decide +kernel)
  · exact Logged.result_eq_ok_iff.2 (by decide +kernel)

end CqlToSql.Condition
