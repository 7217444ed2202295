/-
  CqlToSql.Proofs.Condition.Recursion
  ───────────────────────────────────
  **The walk along left operands is plain recursion.**  Conditions are
  compiled by a walk that collects operators on its way to the leftmost
  operand and attaches them on the way back.  What comes of it, records and
  fault included, is what recursion over the tree gives:

      left, then right   — the first fault ends it, and the records written
                           before it stay
      left alone         — for `or` with a clause like `title=*` on the right

  The records are those of the left operand, then those of the right one.
-/
import CqlToSql.Proofs.Condition.Meaning

namespace CqlToSql

/-! ## §1. Plain recursion. -/

instance : DecidablePred Query.IsAnyValue
  | .clause _ => inferInstanceAs (Decidable (_ ∧ _))
  | .boolean _ _ _ => inferInstanceAs (Decidable False)
  | .sorted _ _ => inferInstanceAs (Decidable False)

namespace Condition

variable {scope : Scope}

/-- Two conditions under an operator. -/
def operatorText (left right : String) : Operator → String
  | .and => s!"({left}) AND ({right})"
  | .or => s!"({left}) OR ({right})"
  | .not => s!"({left}) AND (({right}) IS NOT TRUE)"

/-- The condition of a query, by recursion over the tree. -/
def direct (scope : Scope) : Query → Logged String
  | .clause c => clause scope c
  | .boolean op left right =>
    match direct scope left with
    | ⟨records, .error fault⟩ => ⟨records, .error fault⟩
    | ⟨records, .ok leftSql⟩ =>
      if op = .or ∧ right.IsAnyValue then
        let record := { level := .debug, message := "Simplifying OR clause with =* on the right side" }
        ⟨records ++ [record], .ok leftSql⟩
      else
        match direct scope right with
        | ⟨more, .error fault⟩ => ⟨records ++ more, .error fault⟩
        | ⟨more, .ok rightSql⟩ => ⟨records ++ more, .ok (operatorText leftSql rightSql op)⟩
  | .sorted q keys =>
    match direct scope q with
    | ⟨records, .error fault⟩ => ⟨records, .error fault⟩
    | ⟨records, .ok sql⟩ =>
      match order scope keys with
      | .error fault => ⟨records, .error fault⟩
      | .ok orders => ⟨records, .ok s!"{sql} ORDER BY {orders}"⟩

/-! ## §2. The walk is the recursion. -/

theorem combine_eq_operatorText (op : Operator) (left right : String) :
    combine op left right = operatorText left right op := by
  cases op <;> rfl

theorem attach_of_isAnyValue {op : Operator} {right : Query} (h : op = .or ∧ right.IsAnyValue)
    (condition : Unit → Logged String) (leftSql : String) :
    Pending.attach { operator := op, right, condition } leftSql =
      ⟨[{ level := .debug, message := "Simplifying OR clause with =* on the right side" }],
        .ok leftSql⟩ := by
  unfold Pending.attach
  rw [if_pos ⟨h.1, (matchesAnyValue_iff right).2 h.2⟩]
  rfl

theorem attach_of_not_isAnyValue {op : Operator} {right : Query}
    (h : ¬ (op = .or ∧ right.IsAnyValue)) (condition : Unit → Logged String) (leftSql : String) :
    Pending.attach { operator := op, right, condition } leftSql =
      condition () >>= fun rightSql => pure (operatorText leftSql rightSql op) := by
  unfold Pending.attach
  rw [if_neg fun hany => h ⟨hany.1, (matchesAnyValue_iff right).1 hany.2⟩]
  simp only [combine_eq_operatorText]

/-- **The walk gives what plain recursion gives**: the same text or the same
fault, and the same records in the same order. -/
theorem query_eq_direct (scope : Scope) (q : Query) : query scope q = direct scope q := by
  induction q with
  | clause c => exact query_clause
  | boolean op left right ihl ihr =>
    rw [query_boolean, ihl, ihr, direct]
    rcases direct scope left with ⟨records, fault | leftSql⟩
    · exact Logged.bind_error records fault _
    · rw [Logged.bind_ok]
      dsimp only
      by_cases hany : op = .or ∧ right.IsAnyValue
      · rw [if_pos hany, attach_of_isAnyValue hany]
      · rw [if_neg hany, attach_of_not_isAnyValue hany]
        -- the records of the right operand follow, whether it fails or not
        rcases direct scope right with ⟨more, fault | rightSql⟩
        · rfl
        · rw [Logged.bind_ok]
          show (⟨records ++ (more ++ []), _⟩ : Logged String) = _
          rw [List.append_nil]
          rfl
  | sorted q keys ih =>
    rw [query_sorted, ih, direct]
    rcases direct scope q with ⟨records, fault | sql⟩
    · exact Logged.bind_error records fault _
    · rw [Logged.bind_ok]
      dsimp only
      -- orders write no records
      rcases order scope keys with fault | orders
      · show (⟨records ++ [], .error fault⟩ : Logged String) = _
        rw [List.append_nil]
      · show (⟨records ++ [], .ok (sql ++ " ORDER BY " ++ orders)⟩ : Logged String) = _
        rw [List.append_nil]
        rfl

end Condition

end CqlToSql
