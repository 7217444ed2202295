/-
  CqlToSql.Proofs.Sql.NamedTables
  ───────────────────────────────
  **Nested subqueries over given tables.**  The name of a table may be any
  text, also one that is no word of SQL, so a reader that goes by words alone
  can take it for something else.  Here the reader is given the tables, the
  outer one first, and takes each name as a whole where it expects it:

      operand of t₀ IN ( SELECT operand of t₁ from t₁ WHERE
        operand of t₁ IN ( SELECT operand of t₂ from t₂ WHERE … ) )

  All else is read from the text: which id is tested and which is selected, the
  path into a document, the keywords.  The innermost condition is what is left
  for the last table.

  The three forms of an id are told apart although the name is arbitrary: a
  name with a dot behind it does not begin a text in which other characters
  come before that name (`afterTable_eq_none`).
-/
import CqlToSql.Proofs.Sql.Subquery

namespace CqlToSql.Sql

open CqlToSql.Text

/-! ## §1. Words and names. -/

/-- What follows a keyword, less the blank that ends it. -/
def afterKeyword (keyword : String) (cs : List Char) : Option (List Char) :=
  let start := cs.dropWhile isSpace
  if (start.takeWhile isWordChar).map asciiLower = keyword.toList then
    match start.dropWhile isWordChar with
    | [] => some []
    | c :: rest => if isSpace c then some rest else some (c :: rest)
  else none

/-- What follows a character, with any blanks before it. -/
def afterSymbol (symbol : Char) (cs : List Char) : Option (List Char) :=
  match cs.dropWhile isSpace with
  | c :: rest => if c = symbol then some rest else none
  | [] => none

/-- What follows the name of a table, taken as a whole, and the dot behind it. -/
def afterTable (table : String) (cs : List Char) : Option (List Char) :=
  afterChars (table.toList ++ ['.']) cs

theorem afterTable_append (table : String) (rest : List Char) :
    afterTable table (table.toList ++ '.' :: rest) = some rest := by
  have hdot : table.toList ++ '.' :: rest = (table.toList ++ ['.']) ++ rest := by simp
  rw [afterTable, hdot, afterChars_append]

/-- A name with a dot behind it does not begin a text in which other
characters, dots not among them, come before the name. -/
theorem afterTable_eq_none (table : String) (before : List Char) (hne : before ≠ [])
    (hdot : '.' ∉ before) (rest : List Char) :
    afterTable table (before ++ (table.toList ++ rest)) = none := by
  cases h : afterTable table (before ++ (table.toList ++ rest)) with
  | none => rfl
  | some left =>
    have hall : ∀ c ∈ before, (c != '.') = true := by
      intro c hc
      rw [bne_iff_ne]
      rintro rfl
      exact hdot hc
    have hpos : 0 < before.length := List.length_pos_iff.2 hne
    -- the first dot of the text would stand at two places
    have hplace : ((before ++ (table.toList ++ rest)).takeWhile (· != '.')).length
        = ((table.toList ++ ['.'] ++ left).takeWhile (· != '.')).length := by
      rw [eq_of_afterChars h]
    rw [List.takeWhile_append_of_pos hall, List.append_assoc, List.takeWhile_append,
      List.takeWhile_append, List.length_append] at hplace
    by_cases hname : (table.toList.takeWhile (· != '.')).length = table.toList.length
    · rw [if_pos hname, if_pos hname, List.length_append, List.length_append] at hplace
      simp at hplace
      omega
    · rw [if_neg hname, if_neg hname] at hplace
      omega

/-! ## §2. Ids. -/

theorem cutLiteral_length {cs body rest : List Char} (h : cutLiteral cs = some (body, rest)) :
    rest.length < cs.length := by
  fun_induction cutLiteral cs generalizing body with
  | case1 => cases h
  | case2 cs ih =>
    obtain ⟨⟨inner, left⟩, hcut, he⟩ := Option.map_eq_some_iff.1 h
    cases he
    have := ih hcut
    simp only [List.length_cons]
    omega
  | case3 c cs =>
    cases h
    simp
  | case4 c cs _ _ ih =>
    obtain ⟨⟨inner, left⟩, hcut, he⟩ := Option.map_eq_some_iff.1 h
    cases he
    have := ih hcut
    simp only [List.length_cons]
    omega

/-- Reads the steps into a document. -/
def readPath (cs : List Char) : Option (List String × List Char) :=
  match cs with
  | '-' :: '>' :: '>' :: '\'' :: cs =>
    (cutLiteral cs).map fun (part, rest) => ([String.ofList part], rest)
  | '-' :: '>' :: '\'' :: cs =>
    match _h : cutLiteral cs with
    | none => none
    | some (part, rest) =>
      (readPath rest).map fun (parts, rest) => (String.ofList part :: parts, rest)
  | _ => none
termination_by cs.length
decreasing_by
  have := cutLiteral_length _h
  simp only [List.length_cons]
  omega

/-- Reads the primary key of the table. -/
def readKeyOf (table : String) (cs : List Char) : Option (List Char) :=
  (afterTable table cs).bind (afterKeyword keyColumn)

/-- Reads a field of the table's documents that is converted to an id. -/
def readFieldOf (table : String) (cs : List Char) : Option (List String × List Char) := do
  let cs ← afterSymbol '(' cs
  let cs ← afterTable table cs
  let cs ← afterKeyword documentColumn cs
  let (path, cs) ← readPath cs
  let cs ← afterChars [')', ':', ':'] cs
  let cs ← afterKeyword "uuid" cs
  return (path, cs)

/-- Reads an id of a row of the table. -/
def readIdOf (table : String) (cs : List Char) : Option (Operand × List Char) :=
  match readKeyOf table cs with
  | some rest => some (.key (some table), rest)
  | none =>
    match readFieldOf table cs with
    | some (path, rest) => some (.field table path, rest)
    | none => (afterKeyword keyColumn cs).map fun rest => (.key none, rest)

/-! ## §3. Conditions. -/

/-- What stands before a parenthesis that closes the text. -/
def beforeClosing (cs : List Char) : Option (List Char) :=
  if cs.getLast? = some ')' then some cs.dropLast else none

/-- Reads a test of an id of the outer table against ids of the inner one: the
two ids and the condition of the subquery. -/
def readTestOf (outer inner : String) (cs : List Char) :
    Option (Operand × Operand × List Char) := do
  let (tested, cs) ← readIdOf outer cs
  let cs ← afterKeyword "in" cs
  let cs ← afterSymbol '(' cs
  let cs ← afterKeyword "select" cs
  let (selected, cs) ← readIdOf inner cs
  let cs ← afterKeyword "from" cs
  let cs ← afterChars inner.toList cs
  let cs ← afterKeyword "where" cs
  let condition ← beforeClosing cs
  return (tested, selected, condition)

/-- The condition on rows of the table `outer` that a text is read as, with a
subquery from each of the tables, one within the other. -/
def readOver (outer : String) : (tables : List String) → List Char → Option (Nested String)
  | [], cs => some (.atom (String.ofList cs))
  | inner :: tables, cs => do
    let (tested, selected, condition) ← readTestOf outer inner cs
    let condition ← readOver inner tables condition
    return .isIn tested selected inner condition

/-- The truth of the condition that a text is read as, over the tables; it is
unknown if the text cannot be read. -/
def evaluateOver {Id : Type} [DecidableEq Id] (db : Database Id) (v : Predicates String Id)
    (outer : String) (tables : List String) (rows : Rows Id) (s : String) : Truth :=
  match readOver outer tables s.toList with
  | some condition => condition.eval db v rows
  | none => .null

/-- A blank in a name ends no word, and a parenthesis in it opens nothing. -/
example :
    readOver "a (b" ["my table"]
      "a (b.id IN  ( SELECT (my table.jsonb->'p'->>'q')::UUID from my table WHERE x)".toList =
        some (.isIn (.key (some "a (b")) (.field "my table" ["p", "q"]) "my table"
          (.atom "x")) := by
  decide +kernel

/-! ## §4. What is written, as it is read. -/

theorem readPath_step {cs part rest : List Char} (h : cutLiteral cs = some (part, rest)) :
    readPath ('-' :: '>' :: '\'' :: cs)
      = (readPath rest).map fun (parts, rest) => (String.ofList part :: parts, rest) := by
  rw [readPath]
  split <;> simp_all

theorem readPath_last {cs part rest : List Char} (h : cutLiteral cs = some (part, rest)) :
    readPath ('-' :: '>' :: '>' :: '\'' :: cs) = some ([String.ofList part], rest) := by
  rw [readPath, h]
  rfl

/-- Steps are read as the path that they are written for. -/
theorem readPath_textSteps {parts : List String} (hne : parts ≠ [])
    (hparts : ∀ part ∈ parts, '\'' ∉ part.toList) {rest : List Char}
    (hrest : rest.head? ≠ some '\'') :
    readPath ((textSteps parts).toList ++ rest) = some (parts, rest) := by
  induction parts with
  | nil => exact absurd rfl hne
  | cons part parts ih =>
    obtain ⟨hpart, hparts⟩ := List.forall_mem_cons.1 hparts
    cases parts with
    | nil =>
      have htext : (textSteps [part]).toList ++ rest
          = '-' :: '>' :: '>' :: '\'' :: (part.toList ++ '\'' :: rest) := by
        simp [textSteps]
      rw [htext, readPath_last (cutLiteral_append (undouble_of_no_quote hpart) hrest),
        String.ofList_toList]
    | cons next parts =>
      have htext : (textSteps (part :: next :: parts)).toList ++ rest
          = '-' :: '>' :: '\'' ::
            (part.toList ++ '\'' :: ((textSteps (next :: parts)).toList ++ rest)) := by
        simp [textSteps]
      have hhead : ((textSteps (next :: parts)).toList ++ rest).head? ≠ some '\'' := by
        cases parts <;> simp [textSteps]
      rw [htext, readPath_step (cutLiteral_append (undouble_of_no_quote hpart) hhead),
        ih (by simp) hparts, String.ofList_toList]
      rfl

/-- The primary key with its table. -/
theorem readIdOf_key (table : String) (rest : List Char) :
    readIdOf table (table.toList ++ '.' :: (keyColumn.toList ++ ' ' :: rest))
      = some (.key (some table), rest) := by
  have hkey : readKeyOf table (table.toList ++ '.' :: (keyColumn.toList ++ ' ' :: rest))
      = some rest := by
    rw [readKeyOf, afterTable_append]
    rfl
  rw [readIdOf, hkey]

/-- With other characters before its table, the primary key is not read. -/
theorem readKeyOf_eq_none (table : String) (before : List Char) (hne : before ≠ [])
    (hdot : '.' ∉ before) (rest : List Char) :
    readKeyOf table (before ++ (table.toList ++ rest)) = none := by
  rw [readKeyOf, afterTable_eq_none table before hne hdot]
  rfl

/-- The name of the document column ends where the steps begin. -/
theorem afterKeyword_documentColumn {parts : List String} (hne : parts ≠ []) (rest : List Char) :
    afterKeyword documentColumn (documentColumn.toList ++ ((textSteps parts).toList ++ rest))
      = some ((textSteps parts).toList ++ rest) := by
  have hdash : ∃ more, (textSteps parts).toList = '-' :: more := by
    match parts with
    | [part] => exact ⟨_, by simp [textSteps]; rfl⟩
    | part :: next :: parts => exact ⟨_, by simp [textSteps]; rfl⟩
  obtain ⟨more, hmore⟩ := hdash
  rw [hmore]
  rfl

theorem readFieldOf_append (table : String) {path : String} (hpath : '\'' ∉ path.toList)
    (rest : List Char) :
    readFieldOf table ('(' :: (table.toList ++ '.' :: (documentColumn.toList
        ++ ((textSteps (splitAt '.' path)).toList ++ (")::UUID ".toList ++ rest)))))
      = some (splitAt '.' path, rest) := by
  have hne := splitAt_ne_nil '.' path
  have hparts : ∀ part ∈ splitAt '.' path, '\'' ∉ part.toList := fun part hp =>
    not_mem_of_mem_splitAt hpath hp
  have hsteps : readPath ((textSteps (splitAt '.' path)).toList ++ (")::UUID ".toList ++ rest))
      = some (splitAt '.' path, ")::UUID ".toList ++ rest) :=
    readPath_textSteps hne hparts (by simp)
  show (afterTable table (table.toList ++ '.' :: _)).bind _ = _
  rw [afterTable_append, Option.bind_some]
  refine Option.bind_eq_some_iff.2 ⟨_, afterKeyword_documentColumn hne _, ?_⟩
  exact Option.bind_eq_some_iff.2 ⟨_, hsteps, rfl⟩

/-- A field of a document, converted to an id. -/
theorem readIdOf_field (table : String) {path : String} (hpath : '\'' ∉ path.toList)
    (rest : List Char) :
    readIdOf table ('(' :: (table.toList ++ '.' :: (documentColumn.toList
        ++ ((textSteps (splitAt '.' path)).toList ++ (")::UUID ".toList ++ rest)))))
      = some (.field table (splitAt '.' path), rest) := by
  -- the parenthesis keeps it from being read as the primary key
  have hkey : ∀ more, readKeyOf table ('(' :: (table.toList ++ more)) = none := fun more =>
    readKeyOf_eq_none table ['('] (by simp) (by decide) more
  rw [readIdOf, hkey, readFieldOf_append table hpath]

/-- The primary key without its table. -/
theorem readIdOf_bare (table : String) (rest : List Char) :
    readIdOf table ("id from ".toList ++ (table.toList ++ rest))
      = some (.key none, "from ".toList ++ (table.toList ++ rest)) := by
  have hkey : readKeyOf table ("id from ".toList ++ (table.toList ++ rest)) = none :=
    readKeyOf_eq_none table _ (by simp) (by decide) rest
  have hfield : readFieldOf table ("id from ".toList ++ (table.toList ++ rest)) = none := rfl
  rw [readIdOf, hkey, hfield]
  rfl

/-- A test is read from its two ids and what stands between and behind them. -/
theorem readTestOf_eq_some {outer inner : String} {tested selected : Operand}
    {cs ds condition : List Char}
    (htested : readIdOf outer cs = some (tested, "IN  ( SELECT ".toList ++ ds))
    (hselected : readIdOf inner ds = some (selected,
      "from ".toList ++ (inner.toList ++ (" WHERE ".toList ++ (condition ++ [')']))))) :
    readTestOf outer inner cs = some (tested, selected, condition) := by
  have hclosing : beforeClosing (condition ++ [')']) = some condition := by
    simp [beforeClosing]
  refine Option.bind_eq_some_iff.2 ⟨_, htested, ?_⟩
  refine Option.bind_eq_some_iff.2 ⟨_, rfl, ?_⟩
  refine Option.bind_eq_some_iff.2 ⟨_, rfl, ?_⟩
  refine Option.bind_eq_some_iff.2 ⟨ds, rfl, ?_⟩
  refine Option.bind_eq_some_iff.2 ⟨_, hselected, ?_⟩
  refine Option.bind_eq_some_iff.2 ⟨_, rfl, ?_⟩
  refine Option.bind_eq_some_iff.2 ⟨_, afterChars_append _ _, ?_⟩
  refine Option.bind_eq_some_iff.2 ⟨_, rfl, ?_⟩
  exact Option.bind_eq_some_iff.2 ⟨_, hclosing, rfl⟩

theorem readOver_cons {outer inner : String} {tables : List String} {tested selected : Operand}
    {cs condition : List Char}
    (h : readTestOf outer inner cs = some (tested, selected, condition)) :
    readOver outer (inner :: tables) cs
      = (readOver inner tables condition).map (.isIn tested selected inner) := by
  rw [readOver, h, Option.map_eq_bind]
  rfl

end CqlToSql.Sql
