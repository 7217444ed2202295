/-
  CqlToSql.Proofs.Condition.Meaning
  ─────────────────────────────────
  **Conditions keep the logic of queries.**  The condition of a query, read as
  SQL and evaluated in three-valued logic, is true just when the query
  matches, where clauses match when their own conditions are true:

      a and b   — both match
      a or b    — one of them matches; `b` counts for nothing if it is a
                  clause like `title=*`
      a not b   — `a` matches and `b` does not, also when `b` is unknown

  Clauses are not atomic: their conditions can hold operators, parentheses
  and literals of their own.  That their texts are balanced keeps them apart.
-/
import CqlToSql.Proofs.Condition.Balance
import CqlToSql.Proofs.Sql.Reader

namespace CqlToSql

open CqlToSql.Sql

/-- No part of the query asks for an order. -/
def Query.IsSortFree : Query → Prop
  | .clause _ => True
  | .boolean _ left right => left.IsSortFree ∧ right.IsSortFree
  | .sorted _ _ => False

/-- A clause like `title=*`. -/
def Query.IsAnyValue : Query → Prop
  | .clause c => c.term = "*" ∧ c.relation.base = "="
  | _ => False

namespace Condition

variable {scope : Scope} {v : Assignment} {left right : String}

theorem matchesAnyValue_iff (q : Query) : matchesAnyValue q = true ↔ q.IsAnyValue := by
  cases q <;> simp [matchesAnyValue, Query.IsAnyValue]

/-- The query matches when predicates of clauses have the values `v`. -/
def Matches (scope : Scope) (v : Assignment) : Query → Prop
  | .clause c => ∃ sql, (clause scope c).result = .ok sql ∧ evalText v sql = .yes
  | .boolean .and left right => Matches scope v left ∧ Matches scope v right
  | .boolean .or left right =>
    Matches scope v left ∨ (¬ right.IsAnyValue ∧ Matches scope v right)
  | .boolean .not left right => Matches scope v left ∧ ¬ Matches scope v right
  | .sorted query _ => Matches scope v query

/-- One operator: the combined text is read as its two operands. -/
theorem evalText_combine (op : Operator) (hl : Balanced true left) (hr : Balanced true right) :
    evalText v (combine op left right) = .yes ↔
      match op with
      | .and => evalText v left = .yes ∧ evalText v right = .yes
      | .or => evalText v left = .yes ∨ evalText v right = .yes
      | .not => evalText v left = .yes ∧ evalText v right ≠ .yes := by
  unfold evalText
  cases op with
  | and =>
    rw [combine, read_and hl hr]
    exact Truth.and_eq_yes_iff
  | or =>
    rw [combine, read_or hl hr]
    exact Truth.or_eq_yes_iff
  | not =>
    rw [combine, read_and_isNotTrue hl hr]
    exact Truth.and_eq_yes_iff.trans (and_congr_right' Truth.isNotTrue_eq_yes_iff)

/-- **The condition of a query is true just when the query matches.** -/
theorem evalText_query_eq_yes_iff_matches (t : Translator) (ht : t.scope.IsBalanced true)
    (v : Assignment) {q : Query} (hq : q.IsSortFree) {sql : String}
    (h : (query t.scope q).result = .ok sql) :
    evalText v sql = .yes ↔ Matches t.scope v q := by
  induction q generalizing sql with
  | clause c =>
    rw [query_clause] at h
    constructor
    · intro hyes
      exact ⟨sql, h, hyes⟩
    · rintro ⟨sql', h', hyes⟩
      cases h.symm.trans h'
      exact hyes
  | boolean op left right ihl ihr =>
    obtain ⟨hql, hqr⟩ := hq
    obtain ⟨l, hl, ⟨rfl, hany, rfl⟩ | ⟨hany, r, hr, rfl⟩⟩ := query_boolean_outcome h
    · -- the right operand has been left out
      rw [ihl hql hl, Matches]
      have hright := (matchesAnyValue_iff right).1 hany
      simp [hright]
    -- both operands are balanced, so the reader takes them apart again
    · rw [evalText_combine op (balanced_query ht hl) (balanced_query ht hr)]
      cases op with
      | and =>
        rw [Matches, ← ihl hql hl, ← ihr hqr hr]
      | or =>
        have hright : ¬ right.IsAnyValue := by
          rw [← matchesAnyValue_iff]
          exact fun hr => hany ⟨rfl, hr⟩
        rw [Matches, ← ihl hql hl, ← ihr hqr hr]
        simp [hright]
      | not => rw [Matches, ← ihl hql hl, ← ihr hqr hr]
  | sorted q keys _ => exact hq.elim

/-- A query with a name in two places, a join and a parenthesis in a literal:
`("O'Neil)" or name=*) not groups.title==/respectCase "a("`. -/
theorem evalText_query_unmatched_parentheses :
    let t : Translator :=
      { columns := ["users.jsonb"]
        serverChoice := ["name", "email"]
        schema :=
          { tables :=
              [{ tableName := "users"
                 index := [{ fieldName := "name", sqlExpression := some "concat(jsonb->>'n', '(')" }]
                 foreignKeys := [{ fieldName := "groupId", targetTable := "groups" }] },
               { tableName := "groups" }] } }
    let q : Query :=
      .boolean .not
        (.boolean .or
          (.clause { index := "cql.serverChoice", relation := { base := "=", modifiers := [] }
                     term := "O'Neil)" })
          (.clause { index := "name", relation := { base := "=", modifiers := [] }, term := "*" }))
        (.clause { index := "groups.title"
                   relation :=
                     { base := "=="
                       modifiers := [{ name := "respectCase", comparison := none, value := none }] }
                   term := "a(" })
    let sql := "(to_tsvector('simple', f_unaccent((concat(jsonb->>'n', '(')))) @@ "
      ++ "to_tsquery('simple', f_unaccent('O''Neil\\)')) OR "
      ++ "to_tsvector('simple', f_unaccent(users.jsonb->>'email')) @@ "
      ++ "to_tsquery('simple', f_unaccent('O''Neil\\)'))) AND "
      ++ "(((users.jsonb->>'groupId')::UUID IN  ( SELECT id from groups WHERE "
      ++ "lower(f_unaccent(groups.jsonb->>'title')) LIKE lower(f_unaccent('a(')) AND "
      ++ "f_unaccent(groups.jsonb->>'title') LIKE f_unaccent('a('))) IS NOT TRUE)"
    t.scope.IsBalanced true ∧ q.IsSortFree ∧ (query t.scope q).result = .ok sql ∧
      ∀ v, evalText v sql = .yes ↔ Matches t.scope v q := by
  intro t q sql
  have ht : t.scope.IsBalanced true := by decide +kernel
  have hq : q.IsSortFree := ⟨⟨trivial, trivial⟩, trivial⟩
  have hsql : (query t.scope q).result = .ok sql :=
    Logged.result_eq_ok_iff.2 (by decide +kernel)
  exact ⟨ht, hq, hsql, fun v => evalText_query_eq_yes_iff_matches t ht v hq hsql⟩

end Condition

end CqlToSql
