/-
  CqlToSql.Proofs.Condition.ElementObject
  ───────────────────────────────────────
  **The object that an element has to hold.**  A clause on the elements of an
  array writes a member as a JSON object, and the object as an SQL literal:

      … where t.c @> '{"name": "value"}' and …

  Both ways of quoting are taken back one after the other: two quotes stand for
  one, and the text between the outer quotes is read as JSON.

  Main statement: whatever the name and the value are, the literal stands for the
  object with this one member, character for character
  (`element_object_decodes`).  Where names of the configuration have no stray
  quotes or parentheses, it is also what is read from the SQL text: the only
  object that an element is tested for.
-/
import CqlToSql.Proofs.Condition.Predicates

namespace CqlToSql.Condition

open CqlToSql.Text CqlToSql.Sql

/-! ## §1. The literal. -/

/-- The text of a search up to the literal of its object. -/
def beforeObject (array table : String) : String :=
  "id in (select t.id from (select id as id, jsonb_array_elements(" ++ array ++ ") as c from "
    ++ table ++ ") as t where t.c @> '"

theorem elementSearch_eq (array table name value condition : String) :
    elementSearch array table name value condition = beforeObject array table
      ++ (memberLiteral name value ++ ("'" ++ (" and " ++ condition ++ ")"))) := by
  have hquote : ") as t where t.c @> '" = ") as t where t.c @> " ++ "'" := by decide
  unfold elementSearch beforeObject literal
  rw [hquote]
  simp only [String.append_assoc, -String.reduceAppend]

/-- Behind its opening quote the literal is cut off as the object with the one
member. -/
theorem cutLiteral_memberLiteral (name value rest : String) (hrest : rest.toList.head? ≠ some '\'') :
    cutLiteral (memberLiteral name value ++ ("'" ++ rest)).toList
      = some ((memberObject name value).toList, rest.toList) := by
  have hchars : (memberLiteral name value ++ ("'" ++ rest)).toList
      = (memberLiteral name value).toList ++ '\'' :: rest.toList := by simp
  rw [hchars]
  exact cutLiteral_append (undouble_memberLiteral name value) hrest

/-! ## §2. The object. -/

/-- **The literal behind `@>` stands for the object with the one member**, for
every name and every value. -/
theorem element_object_decodes (scope : Scope) (index : String) (c : Clause) (part : String) :
    (∃ fault, ∀ name value, (element scope index c name part value).result = .error fault) ∨
    ∃ array condition, ∀ name value, ∃ rest object,
      (element scope index c name part value).result
        = .ok (beforeObject array scope.table ++ rest) ∧
      cutLiteral rest.toList = some (object, (" and " ++ condition ++ ")").toList) ∧
      Json.Value.parse (String.ofList object) = some (.object [(some name, .string (some value))]) ∧
      (scope.IsBalanced true → '\'' ∉ index.toList → '\'' ∉ part.toList →
        ∃ q others, readElements? (tokens (beforeObject array scope.table ++ rest)) = some q ∧
          read q.condition = .and (.atom (containmentTokens object)) others ∧
          others.IsConjunctionOf fun ts => containment? ts = none) := by
  rcases result_element scope index c part with hfault | ⟨before, column, condition, hcut, hcond, hok⟩
  · exact .inl hfault
  refine .inr ⟨jsonPath column index, condition, fun name value => ?_⟩
  have htext := elementSearch_eq (jsonPath column index) scope.table name value condition
  refine ⟨_, _, ?_, cutLiteral_memberLiteral name value _ (by simp), ?_, ?_⟩
  · rw [hok, htext]
  · rw [String.ofList_toList]
    exact Json.parse_member name value
  · intro hs hindex hpart
    have hplain := isPlainCondition_element hpart hcond
    rw [← htext]
    exact ⟨_, _, readElements?_element hs hindex hpart hcut hcond name value,
      read_memberQuery hplain name value, hplain.plain⟩

/-- A name and a value with the quotes of both texts, a backslash, a line break
and a letter beyond ASCII. -/
theorem element_object_decodes_quotes :
    let scope := Scope.ofColumns ["t.jsonb"] {} [] .strict
    let value := "é'\"\\\n"
    let sql := "id in (select t.id from (select id as id, jsonb_array_elements(jsonb->'f') as c from t)"
      ++ " as t where t.c @> '\x7b\"o''k\": \"é''\\\"\\\\\\n\"\x7d' and "
      ++ "lower(f_unaccent(t.c->>'value')) LIKE lower(f_unaccent('x')))"
    scope.IsBalanced true ∧
      (element scope "f" ⟨"f", ⟨"==", []⟩, "x"⟩ "o'k" "value" value).result = .ok sql ∧
      ∃ object q others, readElements? (tokens sql) = some q ∧
        read q.condition = .and (.atom (containmentTokens object)) others ∧
        Json.Value.parse (String.ofList object)
          = some (.object [(some "o'k", .string (some value))]) := by
  intro scope value sql
  have hs : scope.IsBalanced true := by decide +kernel
  have hsql : (element scope "f" ⟨"f", ⟨"==", []⟩, "x"⟩ "o'k" "value" value).result = .ok sql :=
    Logged.result_eq_ok_iff.2 (by decide +kernel)
  refine ⟨hs, hsql, ?_⟩
  rcases element_object_decodes scope "f" ⟨"f", ⟨"==", []⟩, "x"⟩ "value" with
    ⟨fault, hfault⟩ | ⟨array, condition, hobject⟩
  · rw [hfault] at hsql
    cases hsql
  · obtain ⟨rest, object, hresult, -, hparse, hread⟩ := hobject "o'k" value
    obtain ⟨q, others, hq, hcondition, -⟩ := hread hs (by decide) (by decide)
    rw [hsql, Except.ok.injEq] at hresult
    rw [hresult]
    exact ⟨object, q, others, hq, hcondition, hparse⟩

end CqlToSql.Condition
