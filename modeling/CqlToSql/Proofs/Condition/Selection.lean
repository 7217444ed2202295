/-
  CqlToSql.Proofs.Condition.Selection
  ───────────────────────────────────
  **Both forms of a translation agree.**  A query is translated into one text,
  with its order behind its condition, or into the two apart.  The clauses of
  the second form, written down, are the first form after `WHERE`:

      selection = ⟨condition, order⟩  ↦  WHERE condition ORDER BY order

  An empty part would be left out there, so this rests on the fact that no
  step of a translation makes an empty condition, and none an empty order as
  long as there are sort keys.  Query texts never give a tree without them.
-/
import CqlToSql.Proofs.Condition.Outcome
import CqlToSql.Proofs.Query.Grammar
import CqlToSql.Proofs.Text.Characters

namespace CqlToSql

open CqlToSql.Text

/-! ## §1. Sort keys of query texts. -/

/-- Wherever the query asks for an order, it has at least one sort key. -/
def Query.SortsHaveKeys : Query → Prop
  | .clause _ => True
  | .boolean _ left right => left.SortsHaveKeys ∧ right.SortsHaveKeys
  | .sorted query keys => query.SortsHaveKeys ∧ keys ≠ []

namespace Grammar

mutual

theorem Operand.sortsHaveKeys {ts : List Token} {q : Query} (h : Operand ts q) :
    q.SortsHaveKeys := by
  match h with
  | .group inner => exact inner.sortsHaveKeys
  | .bare _ => trivial
  | .clause _ _ _ _ => trivial

theorem Expression.sortsHaveKeys {ts : List Token} {q : Query} (h : Expression ts q) :
    q.SortsHaveKeys := by
  match h with
  | .operand hoperand => exact hoperand.sortsHaveKeys
  | .combined hleft _ hright => exact ⟨hleft.sortsHaveKeys, hright.sortsHaveKeys⟩

end

theorem Derives.sortsHaveKeys {ts : List Token} {q : Query} (h : Derives ts q) :
    q.SortsHaveKeys := by
  cases h with
  | unsorted hderived => exact hderived.sortsHaveKeys
  | sorted hderived _ hkeys =>
    refine ⟨hderived.sortsHaveKeys, ?_⟩
    cases hkeys <;> simp

end Grammar

theorem Query.sortsHaveKeys_of_parse {text : String} {q : Query} (h : Query.parse text = .ok q) :
    q.SortsHaveKeys := by
  unfold Query.parse at h
  split at h
  · cases h
  · split at h
    · rename_i hread
      cases h
      exact (Grammar.derives_of_readQuery hread).sortsHaveKeys
    · cases h

namespace Condition

variable {scope : Scope} {c : Clause} {f : CqlToSql.Field} {ix : FieldIndexes} {m : Matching}
  {sql : String}

/-! ## §2. No condition is empty. -/

theorem append_ne_empty {start last : String} (h : last ≠ "") : start ++ last ≠ "" :=
  fun hempty => h (String.append_eq_empty_iff.1 hempty).2

theorem joinWith_ne_empty {separator part : String} (parts : List String) (h : part ≠ "") :
    joinWith separator (part :: parts) ≠ "" := by
  cases parts with
  | nil => exact h
  | cons next parts => simp [joinWith, String.append_eq_empty_iff, h]

theorem strategy_ne_empty {strategy : Strategy} {term : String}
    (h : (strategy.condition term f m ix).result = .ok sql) : sql ≠ "" := by
  cases strategy with
  | words operator =>
    rcases words_outcome h with ⟨-, rfl⟩ | ⟨-, rfl⟩ | ⟨-, -, operands, -, rfl⟩
    · decide
    · exact append_ne_empty (by decide)
    · exact append_ne_empty (by decide)
  | pattern negated =>
    have hmatch : ∀ folding text pattern, patternMatch negated folding text pattern ≠ "" := by
      intro folding text pattern
      cases negated <;> simp [patternMatch, String.append_eq_empty_iff]
    cases (result_pattern term negated).symm.trans h
    split
    · exact hmatch _ _ _
    · simp [String.append_eq_empty_iff]
  | typed operator =>
    cases (result_typed term operator).symm.trans h
    split <;> simp [String.append_eq_empty_iff]

theorem comparison_ne_empty (h : (comparison c f ix).result = .ok sql) : sql ≠ "" := by
  obtain ⟨m, strategy, -, -, h⟩ := comparison_outcome h
  exact strategy_ne_empty h

theorem primaryKey_ne_empty {relation : Relation} {term : String}
    (h : primaryKey relation term = .ok sql) : sql ≠ "" := by
  cases primaryKey_outcome h with
  | constant equal => cases equal <;> decide
  | invalid equal => cases equal <;> decide
  | compared hop huuid => simp [keyColumn, String.append_eq_empty_iff]
  | range equal hl hh => cases equal <;> exact append_ne_empty (by decide)

theorem field_ne_empty {index : String} (h : (field scope index c).result = .ok sql) :
    sql ≠ "" := by
  obtain ⟨expressions, -, ⟨_, _, _, _, -, -, h⟩ | ⟨-, -, h⟩ | ⟨-, -, h⟩⟩ := field_outcome h
  · obtain ⟨_, _, condition, -, -, rfl⟩ := element_outcome h
    exact append_ne_empty (by decide)
  · exact primaryKey_ne_empty h
  · exact comparison_ne_empty h

/-- One of the server's choice of fields is there, and its condition is not
empty. -/
theorem anyField_ne_empty (h : (anyField scope c).result = .ok sql) : sql ≠ "" := by
  obtain ⟨conditions, hchoice, hconditions, rfl⟩ := anyField_outcome h
  obtain ⟨index, rest, hcons⟩ := List.exists_cons_of_ne_nil hchoice
  rw [hcons] at hconditions
  obtain ⟨first, others, hfirst, -, rfl⟩ := fields_cons_outcome hconditions
  exact joinWith_ne_empty others (field_ne_empty hfirst)

theorem nest_ne_empty (path : JoinPath) {inner : String} (h : inner ≠ "") :
    path.nest inner ≠ "" := by
  match path with
  | .toParent [] => exact h
  | .toParent (hop :: hops) => exact append_ne_empty (by decide)
  | .toChild [] => exact h
  | .toChild (hop :: hops) => exact append_ne_empty (by decide)

theorem clause_ne_empty {scope : Scope} {c : Clause} {sql : String}
    (h : (clause scope c).result = .ok sql) : sql ≠ "" := by
  rcases clause_outcome h with rfl | ⟨qualifier, rest, path, table, inner, hq, -, -, hi, rfl⟩ |
    ⟨qualifier, path, -, h⟩ | h | h
  · decide
  · -- the index gets shorter from table to table
    have hlen := Scope.qualifier?_length hq
    exact nest_ne_empty path (clause_ne_empty hi)
  · obtain ⟨table, expressions, -, -, -, rfl | rfl⟩ := valueJoin_outcome h
    · exact append_ne_empty (by decide)
    · exact append_ne_empty (by decide)
  · exact anyField_ne_empty h
  · exact field_ne_empty h
termination_by c.index.toList.length

theorem query_ne_empty {q : Query} (h : (query scope q).result = .ok sql) : sql ≠ "" := by
  induction q generalizing sql with
  | clause c =>
    rw [query_clause] at h
    exact clause_ne_empty h
  | boolean op left right ihl ihr =>
    obtain ⟨l, hl, ⟨-, -, rfl⟩ | ⟨-, r, -, rfl⟩⟩ := query_boolean_outcome h
    · exact ihl hl
    · cases op <;> exact append_ne_empty (by decide)
  | sorted q keys ih =>
    obtain ⟨condition, body, -, -, rfl⟩ := query_sorted_outcome h
    simp [String.append_eq_empty_iff]

/-! ## §3. No order is empty. -/

/-- A path into a document has at least one step. -/
theorem jsonPath_ne_empty (column path : String) : jsonPath column path ≠ "" := by
  obtain ⟨part, parts, hparts⟩ := List.exists_cons_of_ne_nil (splitAt_ne_nil '.' path)
  simp [jsonPath, hparts, jsonSteps, String.append_eq_empty_iff]

theorem field_json_ne_empty {index : String} (h : scope.field index = .ok f) : f.json ≠ "" := by
  unfold Scope.field at h
  split at h
  · cases h
  · cases h
    unfold CqlToSql.Field.withExpression
    split <;> exact jsonPath_ne_empty _ _

theorem sortKey_ne_empty {key : SortKey} (h : sortKey scope key = .ok sql) : sql ≠ "" := by
  obtain ⟨direction, -, rfl | ⟨f, hf, rfl | rfl⟩⟩ := sortKey_outcome h
  · simp [keyColumn, String.append_eq_empty_iff]
  · simp [String.append_eq_empty_iff, field_json_ne_empty hf]
  · simp [lowered, String.append_eq_empty_iff]

theorem order_ne_empty {keys : List SortKey} (hkeys : keys ≠ [])
    (h : order scope keys = .ok sql) : sql ≠ "" := by
  obtain ⟨orders, horders, rfl⟩ := order_outcome h
  obtain ⟨key, keys, rfl⟩ := List.exists_cons_of_ne_nil hkeys
  obtain ⟨first, others, hfirst, -, rfl⟩ := sortKeys_cons_outcome horders
  exact joinWith_ne_empty others (sortKey_ne_empty hfirst)

/-! ## §4. The two forms. -/

/-- A translation into condition and order agrees with one into a single text:
both fail with the same fault, or both succeed, with a condition that is not
empty and with clauses that read `WHERE` and the text. -/
inductive Agrees : Except Fault Selection → Except Fault String → Prop where
  | fault (fault : Fault) : Agrees (.error fault) (.error fault)
  | ok {s : Selection} {sql : String} (hcondition : s.condition ≠ "")
      (hrender : s.render = "WHERE " ++ sql) : Agrees (.ok s) (.ok sql)

theorem agrees_unsorted (scope : Scope) (q : Query) :
    Agrees (query scope q >>= fun condition => pure { condition, order := "" }).result
      (query scope q).result := by
  rw [Logged.result_bind]
  cases hq : (query scope q).result with
  | error fault => exact .fault fault
  | ok condition =>
    have hne := query_ne_empty hq
    refine .ok hne ?_
    simp [Selection.render, hne]

theorem result_selection_sorted (scope : Scope) (q : Query) (keys : List SortKey) :
    (selection scope (.sorted q keys)).result = (query scope q).result.bind fun condition =>
      (order scope keys).map fun order => { condition, order } := by
  rw [selection, Logged.result_bind]
  congr 1
  funext condition
  rw [Logged.result_bind]
  cases order scope keys <;> rfl

theorem result_query_sorted (scope : Scope) (q : Query) (keys : List SortKey) :
    (query scope (.sorted q keys)).result = (query scope q).result.bind fun condition =>
      (order scope keys).map fun order => condition ++ " ORDER BY " ++ order := by
  rw [query_sorted, Logged.result_bind]
  congr 1
  funext condition
  rw [Logged.result_bind]
  cases order scope keys <;> rfl

theorem agrees_sorted (scope : Scope) (q : Query) {keys : List SortKey} (hkeys : keys ≠ []) :
    Agrees (selection scope (.sorted q keys)).result (query scope (.sorted q keys)).result := by
  rw [result_selection_sorted, result_query_sorted]
  cases hq : (query scope q).result with
  | error fault => exact .fault fault
  | ok condition =>
    cases horder : order scope keys with
    | error fault => exact .fault fault
    | ok body =>
      have hcondition := query_ne_empty hq
      have hbody := order_ne_empty hkeys horder
      refine .ok hcondition ?_
      simp [Selection.render, hcondition, hbody, ← String.toList_inj]

theorem agrees_selection (scope : Scope) {q : Query} (hq : q.SortsHaveKeys) :
    Agrees (selection scope q).result (query scope q).result := by
  cases q with
  | clause c => exact agrees_unsorted scope (.clause c)
  | boolean op left right => exact agrees_unsorted scope (.boolean op left right)
  | sorted q keys => exact agrees_sorted scope q hq.2

end Condition

namespace Translator

open CqlToSql.Condition

theorem result_parse_bind {α : Type} (text : String) (f : Query → Logged α) :
    (parse text >>= f).result = ((Query.parse text).mapError .parse).bind fun q => (f q).result :=
  Logged.result_bind _ f

/-- **Condition and order, written down, are the single text after `WHERE`**,
for query trees whose sorts have keys and for query texts, which are never read
as another tree. -/
theorem selection_agrees_condition (t : Translator) :
    (∀ q : Query, q.SortsHaveKeys → Agrees (t.selection q).result (t.condition q).result) ∧
    (∀ text q, Query.parse text = .ok q → q.SortsHaveKeys) ∧
    ∀ text : String, Agrees (t.selectionOf text).result (t.conditionOf text).result := by
  have htree : ∀ q : Query, q.SortsHaveKeys →
      Agrees (t.selection q).result (t.condition q).result := by
    intro q hq
    rw [result_selection, result_condition]
    exact agrees_selection t.scope hq
  refine ⟨htree, fun text q => Query.sortsHaveKeys_of_parse, fun text => ?_⟩
  rw [selectionOf, conditionOf, result_parse_bind, result_parse_bind]
  cases hparse : Query.parse text with
  | error fault => exact .fault (.parse fault)
  | ok q => exact htree q (Query.sortsHaveKeys_of_parse hparse)

/-- A sort by a field and by the primary key, after a condition with an
operator: `(name == ann) not (id = "") sortBy name/sort.descending id`. -/
theorem selection_agrees_condition_two_keys :
    let t : Translator := { columns := ["users.jsonb"] }
    let q : Query :=
      .sorted
        (.boolean .not
          (.clause { index := "name", relation := { base := "==", modifiers := [] }, term := "ann" })
          (.clause { index := "id", relation := { base := "=", modifiers := [] }, term := "" }))
        [{ index := "name"
           modifiers := [{ name := "sort.descending", comparison := none, value := none }] },
         { index := "id", modifiers := [] }]
    let condition := "(lower(f_unaccent(users.jsonb->>'name')) LIKE lower(f_unaccent('ann'))) "
      ++ "AND ((true) IS NOT TRUE)"
    let order := "lower(f_unaccent(users.jsonb->>'name')) DESC, id"
    q.SortsHaveKeys ∧ (t.selection q).result = .ok { condition, order } ∧
      (t.condition q).result = .ok (condition ++ " ORDER BY " ++ order) ∧
      Agrees (t.selection q).result (t.condition q).result := by
  intro t q condition order
  have hq : q.SortsHaveKeys := ⟨⟨trivial, trivial⟩, by simp⟩
  have hselection : (t.selection q).result = .ok { condition, order } :=
    Logged.result_eq_ok_iff.2 (by decide +kernel)
  have hcondition : (t.condition q).result = .ok (condition ++ " ORDER BY " ++ order) :=
    Logged.result_eq_ok_iff.2 (by decide +kernel)
  exact ⟨hq, hselection, hcondition, (selection_agrees_condition t).1 q hq⟩

end Translator

end CqlToSql
