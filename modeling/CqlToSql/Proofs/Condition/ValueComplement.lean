/-
  CqlToSql.Proofs.Condition.ValueComplement
  ─────────────────────────────────────────
  **Comparisons with the values of another table, and missing values.**  A value
  join tests a field of the record against what a subquery selects:

      own IN ( SELECT other from table )
      own NOT IN ( SELECT other from table WHERE other IS NOT NULL )

  The text is read as such a test and evaluated in three-valued logic, for a
  value of the record's own field and for the values of the field in the rows of
  the other table, any of which may be missing.  What the three names stand for
  is given with them: the reader knows the expressions of the two fields and the
  name of the table, and takes each of them as a whole.

  Main statement: for a record that has the field, the negated text is true just
  when the other one is not, and that is true just when some row of the other
  table holds the very value.  For a record without the field neither is true,
  unless no row has a value at all.
-/
import CqlToSql.Proofs.Condition.ValueJoin
import CqlToSql.Proofs.Sql.NamedTables

namespace CqlToSql.Sql

open CqlToSql.Text

/-! ## §1. Tests as they are read. -/

/-- The expressions and the table that a test names. -/
structure Comparands where
  /-- The field of the record. -/
  own : String
  /-- The field of the other table. -/
  other : String
  table : String
  deriving Repr, DecidableEq

/-- A test of the record's field against the field of the other table. -/
structure ValueTest where
  negated : Bool
  /-- Only rows that have the field are looked at, or only those without it. -/
  present : Option Bool
  deriving Repr, DecidableEq

/-- Whether a keyword is there, and what follows it. -/
def readIf (keyword : String) (cs : List Char) : Bool × List Char :=
  match afterKeyword keyword cs with
  | some rest => (true, rest)
  | none => (false, cs)

/-- Reads the condition on rows, if there is one. -/
def readPresence (e : Comparands) (cs : List Char) : Option (Option Bool × List Char) :=
  match afterKeyword "where" cs with
  | none => some (none, cs)
  | some cs => do
    let cs ← afterChars e.other.toList cs
    let cs ← afterKeyword "is" cs
    let (present, cs) := readIf "not" cs
    let cs ← afterKeyword "null" cs
    return (some present, cs)

/-- Reads what follows the table, to the end of the text. -/
def readRows (e : Comparands) (cs : List Char) : Option (Option Bool) := do
  let (present, cs) ← readPresence e cs
  let cs ← afterSymbol ')' cs
  if cs.isEmpty then some present else none

/-- Reads a test. -/
def readValueTest (e : Comparands) (cs : List Char) : Option ValueTest := do
  let cs ← afterChars e.own.toList cs
  let (negated, cs) := readIf "not" cs
  let cs ← afterKeyword "in" cs
  let cs ← afterSymbol '(' cs
  let cs ← afterKeyword "select" cs
  let cs ← afterChars e.other.toList cs
  let cs ← afterKeyword "from" cs
  let cs ← afterChars e.table.toList cs
  let present ← readRows e cs
  return { negated, present }

variable {e : Comparands}

/-- A test is read over its three names, whatever they are. -/
theorem readValueTest_append (negated : Bool) {present : Option Bool} {rows : String}
    (h : readRows e rows.toList = some present) :
    readValueTest e (e.own ++ (if negated then " NOT IN  ( SELECT " else " IN  ( SELECT ") ++ e.other
      ++ " from " ++ e.table ++ rows).toList = some { negated, present } := by
  simp only [String.toList_append, List.append_assoc]
  -- each name is taken as a whole, and what stands between two of them is fixed
  refine Option.bind_eq_some_iff.2 ⟨_, afterChars_append _ _, ?_⟩
  cases negated <;>
  · refine Option.bind_eq_some_iff.2 ⟨_, rfl, ?_⟩
    refine Option.bind_eq_some_iff.2 ⟨_, rfl, ?_⟩
    refine Option.bind_eq_some_iff.2 ⟨_, rfl, ?_⟩
    refine Option.bind_eq_some_iff.2 ⟨_, afterChars_append _ _, ?_⟩
    refine Option.bind_eq_some_iff.2 ⟨_, rfl, ?_⟩
    refine Option.bind_eq_some_iff.2 ⟨_, afterChars_append _ _, ?_⟩
    exact Option.bind_eq_some_iff.2 ⟨_, h, rfl⟩

theorem readRows_presence (e : Comparands) :
    readRows e (" WHERE " ++ e.other ++ " IS NOT NULL)").toList = some (some true) := by
  have hpresence : readPresence e (" WHERE " ++ e.other ++ " IS NOT NULL)").toList
      = some (some true, [')']) := by
    simp only [String.toList_append, List.append_assoc]
    refine Option.bind_eq_some_iff.2 ⟨_, afterChars_append _ _, ?_⟩
    rfl
  rw [readRows, hpresence]
  rfl

/-! ## §2. Truth. -/

/-- A negation is true when its condition is false. -/
def Truth.not : Truth → Truth
  | .yes => .no
  | .no => .yes
  | .null => .null

theorem Truth.not_eq_yes_iff {a : Truth} : a.not = .yes ↔ a = .no := by
  cases a <;> decide

theorem Truth.or_eq_no_iff {a b : Truth} : a.or b = .no ↔ a = .no ∧ b = .no := by
  cases a <;> cases b <;> decide

/-- The truth of a test of a value against some values. -/
def isIn (value : Option String) (values : List (Option String)) : Truth :=
  (values.map (sameId value)).foldr Truth.or .no

/-- The values that a test looks at. -/
def ValueTest.values (t : ValueTest) (rows : List (Option String)) : List (Option String) :=
  match t.present with
  | none => rows
  | some present => rows.filter fun value => value.isSome == present

/-- The truth of a test, for the value of the record's field and the values of
the field in the rows of the other table. -/
def ValueTest.truth (t : ValueTest) (value : Option String) (rows : List (Option String)) : Truth :=
  if t.negated then (isIn value (t.values rows)).not else isIn value (t.values rows)

/-- The truth of the test that a text is read as. -/
def valueTruth (e : Comparands) (value : Option String) (rows : List (Option String))
    (sql : String) : Truth :=
  match readValueTest e sql.toList with
  | some t => t.truth value rows
  | none => .null

variable {value : Option String} {values rows : List (Option String)} {v : String}

theorem isIn_eq_yes_iff : isIn value values = .yes ↔ value.isSome = true ∧ value ∈ values := by
  rw [isIn, foldr_or_eq_yes_iff, List.mem_map]
  constructor
  · rintro ⟨other, hmem, hsame⟩
    obtain ⟨x, rfl, rfl⟩ := sameId_eq_yes_iff.1 hsame
    exact ⟨rfl, hmem⟩
  · rintro ⟨hsome, hmem⟩
    obtain ⟨x, rfl⟩ := Option.isSome_iff_exists.1 hsome
    exact ⟨some x, hmem, sameId_eq_yes_iff.2 ⟨x, rfl, rfl⟩⟩

theorem sameId_eq_no_iff {a b : Option String} :
    sameId a b = .no ↔ a.isSome = true ∧ b.isSome = true ∧ a ≠ b := by
  cases a with
  | none => simp [sameId]
  | some x =>
    cases b with
    | none => simp [sameId]
    | some y =>
      rw [sameId]
      by_cases hxy : x = y
      · simp [hxy]
      · simp [hxy]

/-- A test is false only if no equality is unknown. -/
theorem isIn_eq_no_iff :
    isIn value values = .no ↔
      ∀ other ∈ values, value.isSome = true ∧ other.isSome = true ∧ value ≠ other := by
  unfold isIn
  induction values with
  | nil => simp
  | cons other values ih =>
    rw [List.map_cons, List.foldr_cons, Truth.or_eq_no_iff, ih, sameId_eq_no_iff,
      List.forall_mem_cons]

/-- Among rows that have the field, a test is false just when the value is
nowhere, and for a record without the field just when there is no such row. -/
theorem isIn_present_eq_no_iff :
    isIn value (rows.filter fun other => other.isSome == true) = .no ↔
      ∀ other ∈ rows, other.isSome = true → value.isSome = true ∧ value ≠ other := by
  rw [isIn_eq_no_iff]
  constructor
  · intro h other hmem hsome
    obtain ⟨hvalue, -, hne⟩ := h other (List.mem_filter.2 ⟨hmem, by simp [hsome]⟩)
    exact ⟨hvalue, hne⟩
  · intro h other hmem
    obtain ⟨hmem, hsome⟩ := List.mem_filter.1 hmem
    have hsome : other.isSome = true := by simpa using hsome
    obtain ⟨hvalue, hne⟩ := h other hmem hsome
    exact ⟨hvalue, hsome, hne⟩

end CqlToSql.Sql

namespace CqlToSql

open CqlToSql.Text CqlToSql.Sql

/-! ## §3. Value joins. -/

/-- The clause with another relation symbol. -/
def Clause.withBase (c : Clause) (base : String) : Clause :=
  { c with relation := { c.relation with base } }

namespace Scope

variable {scope : Scope} {qualifier path sql : String} {c : Clause}

/-- What the text of a value join names. -/
def comparands (f : Field) (table path : String) : Comparands :=
  { own := f.text, other := textPath (table ++ "." ++ documentColumn) path, table }

/-- The text that selects the records with a value of the other table. -/
def equalText (e : Comparands) : String :=
  e.own ++ " IN  ( SELECT " ++ e.other ++ " from " ++ e.table ++ ")"

/-- The text that selects the records with another value. -/
def unequalText (e : Comparands) : String :=
  e.own ++ " NOT IN  ( SELECT " ++ e.other ++ " from " ++ e.table ++ " WHERE " ++ e.other
    ++ " IS NOT NULL)"

/-- Where one relation of a value join is translated, all three of them are. -/
theorem valueJoin_relations (h : scope.valueJoin qualifier path c = .ok sql) :
    ∃ table f, scope.schema.tableForAlias qualifier = some table ∧
      scope.field c.index = .ok f ∧
      (∀ base ∈ ["=", "=="],
        scope.valueJoin qualifier path (c.withBase base)
          = .ok (equalText (comparands f table path))) ∧
      scope.valueJoin qualifier path (c.withBase "<>")
        = .ok (unequalText (comparands f table path)) ∧
      (sql = equalText (comparands f table path) ∨ sql = unequalText (comparands f table path)) := by
  obtain ⟨route, hroute⟩ := exists_joinPath_of_valueJoin h
  obtain ⟨table, f, hpath, htable, hf, hsql⟩ := Condition.valueJoin_outcome h
  refine ⟨table, f, htable, hf, ?_, ?_, hsql⟩
  · intro base hbase
    have hequal : base = "=" ∨ base = "==" := by simpa using hbase
    simp [valueJoin, Clause.withBase, hpath, hroute, htable, hf, hequal, equalText, comparands]
  · simp [valueJoin, Clause.withBase, hpath, hroute, htable, hf, unequalText, comparands]

variable {e : Comparands} {value : Option String} {rows : List (Option String)}

theorem valueTruth_equalText :
    valueTruth e value rows (equalText e) = isIn value rows := by
  have hread : readValueTest e (equalText e).toList = some { negated := false, present := none } :=
    readValueTest_append false rfl
  rw [valueTruth, hread]
  rfl

theorem valueTruth_unequalText :
    valueTruth e value rows (unequalText e)
      = (isIn value (rows.filter fun other => other.isSome == true)).not := by
  have htext : unequalText e = e.own ++ " NOT IN  ( SELECT " ++ e.other ++ " from " ++ e.table
      ++ (" WHERE " ++ e.other ++ " IS NOT NULL)") := by
    simp only [unequalText, String.append_assoc]
  have hread : readValueTest e (unequalText e).toList
      = some { negated := true, present := some true } := by
    rw [htext]
    exact readValueTest_append true (readRows_presence e)
  rw [valueTruth, hread]
  rfl

/-- **A negated value join is the complement of the plain one.**  Whenever a
comparison with the values of another table is translated, it is for all three
relations.  For any values of the other table, missing ones among them, and a
record that has the field: `<>` is true just when `=` is not, and `=` is true just
when some row holds the very value of the record.  For a record without the field
neither is true if some row has a value. -/
theorem valueJoin_complement (h : scope.valueJoin qualifier path c = .ok sql) :
    ∃ table f equal unequal, scope.schema.tableForAlias qualifier = some table ∧
      scope.field c.index = .ok f ∧
      (∀ base ∈ ["=", "=="], scope.valueJoin qualifier path (c.withBase base) = .ok equal) ∧
      scope.valueJoin qualifier path (c.withBase "<>") = .ok unequal ∧
      (sql = equal ∨ sql = unequal) ∧
      ∀ rows : List (Option String),
        (∀ v : String,
          (valueTruth (comparands f table path) (some v) rows unequal = .yes ↔
            valueTruth (comparands f table path) (some v) rows equal ≠ .yes) ∧
          (valueTruth (comparands f table path) (some v) rows equal = .yes ↔ some v ∈ rows)) ∧
        ((∃ v, some v ∈ rows) →
          valueTruth (comparands f table path) none rows equal ≠ .yes ∧
          valueTruth (comparands f table path) none rows unequal ≠ .yes) := by
  obtain ⟨table, f, htable, hf, hequal, hunequal, hsql⟩ := valueJoin_relations h
  refine ⟨table, f, _, _, htable, hf, hequal, hunequal, hsql, fun rows => ⟨fun v => ?_, ?_⟩⟩
  -- rows without the field are left out before the negation, so no test in it is unknown
  · rw [valueTruth_equalText, valueTruth_unequalText, Truth.not_eq_yes_iff, isIn_present_eq_no_iff,
      ne_eq, isIn_eq_yes_iff]
    refine ⟨?_, by simp⟩
    constructor
    · rintro hno ⟨-, hmem⟩
      exact (hno (some v) hmem rfl).2 rfl
    · intro hmem other hother _
      exact ⟨rfl, fun heq => hmem ⟨rfl, heq ▸ hother⟩⟩
  · rintro ⟨v, hmem⟩
    rw [valueTruth_equalText, valueTruth_unequalText, ne_eq, ne_eq, Truth.not_eq_yes_iff,
      isIn_present_eq_no_iff, isIn_eq_yes_iff]
    refine ⟨by simp, fun hno => ?_⟩
    exact absurd (hno (some v) hmem rfl).1 (by simp)

/-- A missing value of the other table makes neither text unknown for the record
with the value `x`, which no row holds, and takes nothing from the one with `a`. -/
theorem valueJoin_complement_missing_value :
    ∃ equal unequal,
      ownerScope.valueJoin "copy" "code" ⟨"ref", ⟨"==", []⟩, "copy.code"⟩ = .ok equal ∧
      ownerScope.valueJoin "copy" "code" ⟨"ref", ⟨"<>", []⟩, "copy.code"⟩ = .ok unequal ∧
      ∃ e, valueTruth e (some "x") [some "a", none] unequal = .yes ∧
        valueTruth e (some "a") [some "a", none] equal = .yes ∧
        valueTruth e none [some "a", none] unequal ≠ .yes := by
  have hsql : ownerScope.valueJoin "copy" "code" ⟨"ref", ⟨"==", []⟩, "copy.code"⟩ = .ok
      "loan.jsonb->>'ref' IN  ( SELECT item.jsonb->>'code' from item)" :=
    Logged.result_eq_ok_iff (x := .ofExcept _).2 (by decide +kernel)
  obtain ⟨table, f, equal, unequal, -, -, hequal, hunequal, -, htruth⟩ := valueJoin_complement hsql
  obtain ⟨hpresent, hmissing⟩ := htruth [some "a", none]
  refine ⟨equal, unequal, hequal "==" (by decide), hunequal, comparands f table "code", ?_, ?_, ?_⟩
  · rw [(hpresent "x").1, ne_eq, (hpresent "x").2]
    decide
  · rw [(hpresent "a").2]
    decide
  · exact (hmissing ⟨"a", by decide⟩).2

end Scope

end CqlToSql
