/-
  CqlToSql.Proofs.Sql.Subquery
  ────────────────────────────
  **Conditions with subqueries, and their truth in a database.**  A condition
  is read as a test of an id against the ids that a subquery selects, whose
  own condition is read in the same way; all else is a predicate:

      operand IN ( SELECT operand from table WHERE condition )

  A database holds rows with an id and, in the fields of their documents, ids
  of other rows or nothing.  A name stands for the row of the innermost
  subquery from a table of that name, so a table hides an outer one of the
  same name; an id without a table is that of the innermost row.

      evaluate db v rows sql  — the truth of a condition, where `v` gives the
                                truth of predicates and `rows` are the rows
                                at hand, the innermost first

  Main statement: a test is true just when the table has a row that fulfils
  the inner condition and has the id that is tested (`eval_isIn_eq_yes_iff`).
-/
import CqlToSql.Proofs.Sql.Literal

namespace CqlToSql.Sql

open CqlToSql.Text

/-! ## §1. Operands as they are read. -/

/-- An id that a row holds. -/
inductive Operand where
  /-- The primary key of a row. -/
  | key (table : Option String)
  /-- The id in a field of the row's document. -/
  | field (table : String) (path : List String)
  deriving Repr, DecidableEq

/-- Reads a token that `accept` takes. -/
def readOne (accept : Token → Bool) : List Token → Option (List Token)
  | t :: ts => if accept t then some ts else none
  | [] => none

/-- Reads a keyword. -/
def readKeyword (keyword : String) : List Token → Option (List Token) :=
  readOne (Token.isKeyword keyword)

/-- Reads the steps into a document. -/
def readSteps : List Token → Option (List String × List Token)
  | .symbol '-' :: .symbol '>' :: .symbol '>' :: .quoted part :: ts =>
    some ([String.ofList part], ts)
  | .symbol '-' :: .symbol '>' :: .quoted part :: ts =>
    (readSteps ts).map fun (parts, rest) => (String.ofList part :: parts, rest)
  | _ => none

/-- Reads the end of an expression that is converted to an id. -/
def readConversion : List Token → Option (List Token)
  | .closing :: .symbol ':' :: .symbol ':' :: ts => readKeyword "uuid" ts
  | _ => none

/-- Reads an id. -/
def readId : List Token → Option (Operand × List Token)
  | .opening :: .word table :: .symbol '.' :: .word column :: ts =>
    if column = documentColumn.toList then
      (readSteps ts).bind fun (path, ts) =>
        (readConversion ts).map fun ts => (.field (String.ofList table) path, ts)
    else none
  | .word table :: .symbol '.' :: .word column :: ts =>
    if column = keyColumn.toList then some (.key (some (String.ofList table)), ts) else none
  | .word column :: ts => if column = keyColumn.toList then some (.key none, ts) else none
  | _ => none

/-- Reads the name of a table. -/
def readTable : List Token → Option (String × List Token)
  | .word table :: ts => some (String.ofList table, ts)
  | _ => none

/-! ## §2. Conditions as they are read. -/

/-- A test of an id against a subquery. -/
structure SubqueryTest where
  tested : Operand
  selected : Operand
  table : String
  condition : List Token
  deriving Repr, DecidableEq

/-- Reads a test against a subquery, which must end with the tokens. -/
def readSubquery? (ts : List Token) : Option SubqueryTest := do
  let (tested, ts) ← readId ts
  let ts ← readKeyword "in" ts
  let ts ← readOne (· == .opening) ts
  let ts ← readKeyword "select" ts
  let (selected, ts) ← readId ts
  let ts ← readKeyword "from" ts
  let (table, ts) ← readTable ts
  let ts ← readKeyword "where" ts
  let condition ← inside 0 ts
  return { tested, selected, table, condition }

theorem readOne_length {accept : Token → Bool} {ts rest : List Token}
    (h : readOne accept ts = some rest) : rest.length ≤ ts.length := by
  unfold readOne at h
  split at h
  · split at h
    · cases h
      simp
    · cases h
  · cases h

theorem readSteps_length {ts rest : List Token} {parts : List String}
    (h : readSteps ts = some (parts, rest)) : rest.length ≤ ts.length := by
  fun_induction readSteps ts generalizing parts with
  | case1 part ts =>
    cases h
    simp only [List.length_cons]
    omega
  | case2 part ts ih =>
    obtain ⟨⟨parts', rest'⟩, hr, he⟩ := Option.map_eq_some_iff.1 h
    cases he
    have := ih hr
    simp only [List.length_cons]
    omega
  | case3 => cases h

theorem readConversion_length {ts rest : List Token} (h : readConversion ts = some rest) :
    rest.length ≤ ts.length := by
  unfold readConversion at h
  split at h
  · have := readOne_length h
    simp only [List.length_cons]
    omega
  · cases h

theorem readId_length {ts rest : List Token} {operand : Operand}
    (h : readId ts = some (operand, rest)) : rest.length ≤ ts.length := by
  unfold readId at h
  split at h
  · split at h
    · obtain ⟨⟨path, ts'⟩, hsteps, h⟩ := Option.bind_eq_some_iff.1 h
      obtain ⟨ts'', hconversion, he⟩ := Option.map_eq_some_iff.1 h
      cases he
      have := readSteps_length hsteps
      have := readConversion_length hconversion
      simp only [List.length_cons]
      omega
    · cases h
  · split at h
    · cases h
      simp only [List.length_cons]
      omega
    · cases h
  · split at h
    · cases h
      simp
    · cases h
  · cases h

theorem readTable_length {ts rest : List Token} {table : String}
    (h : readTable ts = some (table, rest)) : rest.length ≤ ts.length := by
  unfold readTable at h
  split at h
  · cases h
    simp
  · cases h

theorem readSubquery?_length {ts : List Token} {m : SubqueryTest}
    (h : readSubquery? ts = some m) : m.condition.length < ts.length := by
  unfold readSubquery? at h
  obtain ⟨⟨tested, ts₁⟩, h₁, h⟩ := Option.bind_eq_some_iff.1 h
  obtain ⟨ts₂, h₂, h⟩ := Option.bind_eq_some_iff.1 h
  obtain ⟨ts₃, h₃, h⟩ := Option.bind_eq_some_iff.1 h
  obtain ⟨ts₄, h₄, h⟩ := Option.bind_eq_some_iff.1 h
  obtain ⟨⟨selected, ts₅⟩, h₅, h⟩ := Option.bind_eq_some_iff.1 h
  obtain ⟨ts₆, h₆, h⟩ := Option.bind_eq_some_iff.1 h
  obtain ⟨⟨table, ts₇⟩, h₇, h⟩ := Option.bind_eq_some_iff.1 h
  obtain ⟨ts₈, h₈, h⟩ := Option.bind_eq_some_iff.1 h
  obtain ⟨condition, h₉, h⟩ := Option.bind_eq_some_iff.1 h
  cases h
  show condition.length < ts.length
  have := readId_length h₁
  have := readOne_length h₂
  have := readOne_length h₃
  have := readOne_length h₄
  have := readId_length h₅
  have := readOne_length h₆
  have := readTable_length h₇
  have := readOne_length h₈
  have := inside_length h₉
  omega

/-- A condition with subqueries. -/
inductive Nested (Atom : Type) where
  /-- A predicate, as it is read. -/
  | atom (a : Atom)
  /-- The tested id is one of those selected from the rows of the table that
  fulfil the condition. -/
  | isIn (tested selected : Operand) (table : String) (condition : Nested Atom)
  deriving Repr, DecidableEq

/-- The condition that tokens are read as, with its subqueries. -/
def readNested (ts : List Token) : Nested (List Token) :=
  match _h : readSubquery? ts with
  | some m => .isIn m.tested m.selected m.table (readNested m.condition)
  | none => .atom ts
termination_by ts.length
decreasing_by exact readSubquery?_length _h

theorem readNested_of_subquery {ts : List Token} {m : SubqueryTest}
    (h : readSubquery? ts = some m) :
    readNested ts = .isIn m.tested m.selected m.table (readNested m.condition) := by
  rw [readNested]
  split <;> simp_all

/-- The inner condition ends at the parenthesis that closes the subquery. -/
example :
    readNested (tokens "a.id IN  ( SELECT (b.jsonb->'p'->>'q')::UUID from b WHERE f(')') OR x)") =
      .isIn (.key (some "a")) (.field "b" ["p", "q"]) "b"
        (.atom (tokens "f(')') OR x")) := by
  decide +kernel

/-! ## §3. Truth in a database. -/

/-- A row of a table. -/
structure Row (Id : Type) where
  id : Id
  /-- The id in a field of the document, if there is one. -/
  key : String → Option Id

/-- The rows of each table. -/
abbrev Database (Id : Type) : Type := String → List (Row Id)

/-- The rows that a condition can name, with their tables, the innermost
first. -/
abbrev Rows (Id : Type) : Type := List (String × Row Id)

/-- The truth of predicates. -/
abbrev Predicates (Atom Id : Type) : Type := Atom → Rows Id → Truth

variable {Atom Id : Type} [DecidableEq Id] {db : Database Id} {v : Predicates Atom Id}
  {rows : Rows Id}

/-- The id that an operand stands for. -/
def Operand.value (rows : Rows Id) : Operand → Option Id
  | .key none => rows.head?.map fun row => row.2.id
  | .key (some table) => (rows.lookup table).map Row.id
  | .field table path => (rows.lookup table).bind fun row => row.key (joinWith "." path)

/-- The truth of an equality of ids; it is unknown when one is missing. -/
def sameId : Option Id → Option Id → Truth
  | some a, some b => if a = b then .yes else .no
  | _, _ => .null

/-- The truth of a condition.  A test against a subquery is true when one of
the equalities is, and unknown rather than false when one of them is. -/
def Nested.eval (db : Database Id) (v : Predicates Atom Id) : Rows Id → Nested Atom → Truth
  | rows, .atom a => v a rows
  | rows, .isIn tested selected table condition =>
    (((db table).filter fun row => condition.eval db v ((table, row) :: rows) = .yes).map
      fun row => sameId (tested.value rows) (selected.value ((table, row) :: rows))).foldr
        Truth.or .no

/-- The truth of the condition that a text is read as. -/
def evaluate (db : Database Id) (v : Predicates (List Token) Id) (rows : Rows Id) (s : String) :
    Truth :=
  (readNested (tokens s)).eval db v rows

theorem sameId_eq_yes_iff {a b : Option Id} : sameId a b = .yes ↔ ∃ x, a = some x ∧ b = some x := by
  cases a with
  | none => simp [sameId]
  | some x =>
    cases b with
    | none => simp [sameId]
    | some y =>
      rw [sameId]
      by_cases hxy : x = y
      · simp [hxy]
      · simp [hxy, Ne.symm hxy]

theorem foldr_or_eq_yes_iff (truths : List Truth) :
    truths.foldr Truth.or .no = .yes ↔ .yes ∈ truths := by
  induction truths with
  | nil => simp
  | cons t truths ih => rw [List.foldr_cons, Truth.or_eq_yes_iff, ih, List.mem_cons, eq_comm]

/-- **A test against a subquery is true just when a row of the table fulfils
the inner condition and gives the tested id.**  Missing ids are equal to
nothing. -/
theorem eval_isIn_eq_yes_iff {tested selected : Operand} {table : String}
    {condition : Nested Atom} :
    (Nested.isIn tested selected table condition).eval db v rows = .yes ↔
      ∃ row ∈ db table, condition.eval db v ((table, row) :: rows) = .yes ∧
        ∃ x, tested.value rows = some x ∧ selected.value ((table, row) :: rows) = some x := by
  rw [Nested.eval, foldr_or_eq_yes_iff, List.mem_map]
  constructor
  · rintro ⟨row, hmem, hsame⟩
    rw [List.mem_filter, decide_eq_true_eq] at hmem
    exact ⟨row, hmem.1, hmem.2, sameId_eq_yes_iff.1 hsame⟩
  · rintro ⟨row, hmem, hcondition, hsame⟩
    refine ⟨row, ?_, sameId_eq_yes_iff.2 hsame⟩
    rw [List.mem_filter, decide_eq_true_eq]
    exact ⟨hmem, hcondition⟩

end CqlToSql.Sql
