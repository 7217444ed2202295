/-
  CqlToSql.Proofs.Condition.Links
  ───────────────────────────────
  **Links of a join, as they are written and read.**  Each link of a chain puts
  one subquery around the condition on the table that it leads to:

      (child.jsonb->>'field')::UUID IN  ( SELECT id from parent WHERE … )
      parent.id IN  ( SELECT (child.jsonb->>'field')::UUID from child WHERE … )

  The text of a chain is read back as its links, one test for each
  (`Link.nest`).  If the reader is given the tables along the chain, the names
  of tables may be any texts (`readOver_links`).  If they are identifiers, the
  words of the text are enough (`readNested_links`).
-/
import CqlToSql.Proofs.Condition.Balance
import CqlToSql.Proofs.Sql.NamedTables

namespace CqlToSql

open CqlToSql.Text CqlToSql.Sql CqlToSql.Condition

/-! ## §1. The field of a key, as it is read. -/

variable {parts : List String} {rest inner : String} {ts : List Sql.Token}

/-- Steps are read as the path that they are written for. -/
theorem readSteps_stepTokens (hne : parts ≠ []) (ts : List Sql.Token) :
    readSteps (stepTokens parts ++ ts) = some (parts, ts) := by
  induction parts with
  | nil => exact absurd rfl hne
  | cons part parts ih =>
    cases parts with
    | nil => simp [stepTokens, readSteps]
    | cons next parts =>
      show readSteps (.symbol '-' :: .symbol '>' :: .quoted part.toList
        :: (stepTokens (next :: parts) ++ ts)) = _
      rw [readSteps, ih (by simp)]
      simp

/-- The names of a hop can stand in SQL as they are. -/
structure Hop.IsNamed (h : Hop) : Prop where
  table : isIdentifier h.table = true
  target : isIdentifier h.target = true
  field : '\'' ∉ h.field.toList

theorem Hop.IsNamed.name_table {h : Hop} (hh : h.IsNamed) : IsName h.table :=
  isName_of_isIdentifier hh.table

theorem Hop.IsNamed.name_target {h : Hop} (hh : h.IsNamed) : IsName h.target :=
  isName_of_isIdentifier hh.target

/-- The tokens of the field that holds the key of a hop, converted to an id. -/
def Hop.keyTokens (h : Hop) : List Sql.Token :=
  .opening :: .word h.table.toList :: .symbol '.' :: .word documentColumn.toList ::
    (stepTokens (splitAt '.' h.field) ++ [.closing, .symbol ':', .symbol ':', .word "UUID".toList])

/-- The id in the field that holds the key of a hop. -/
def Hop.keyOperand (h : Hop) : Operand := .field h.table (splitAt '.' h.field)

variable {h : Hop}

theorem Hop.tokens_keyText_append (hh : h.IsNamed) (hrest : EndsName rest) :
    tokens ("(" ++ h.keyText ++ ")::UUID" ++ rest) = h.keyTokens ++ tokens rest := by
  have hassoc : "(" ++ h.keyText ++ ")::UUID" ++ rest = "(" ++ (h.table ++ ("." ++ (documentColumn
      ++ (textSteps (splitAt '.' h.field) ++ (")::" ++ ("UUID" ++ rest)))))) := by
    simp [Hop.keyText, textPath, ← String.toList_inj]
  have hdot : ∀ s, EndsName ("." ++ s) := EndsName.append (by decide)
  have hsteps : EndsName (textSteps (splitAt '.' h.field) ++ (")::" ++ ("UUID" ++ rest))) := by
    unfold EndsName
    rw [head?_textSteps (splitAt_ne_nil _ _)]
    decide
  have hparts : ∀ part ∈ splitAt '.' h.field, '\'' ∉ part.toList := fun part hp =>
    not_mem_of_mem_splitAt hh.field hp
  rw [hassoc, tokens_connector_append (by decide), tokens_word_append hh.name_table (hdot _),
    tokens_connector_append (by decide), tokens_word_append (by decide) hsteps,
    tokens_textSteps_append hparts (by simp), tokens_connector_append (by decide),
    tokens_word_append (by decide) hrest]
  simp only [Hop.keyTokens, List.cons_append, List.append_assoc]
  rfl

theorem Hop.readId_keyTokens (h : Hop) (ts : List Sql.Token) :
    readId (h.keyTokens ++ ts) = some (h.keyOperand, ts) := by
  have hconversion : readConversion (.closing :: .symbol ':' :: .symbol ':' ::
      .word "UUID".toList :: ts) = some ts := rfl
  show readId (.opening :: .word h.table.toList :: .symbol '.' :: .word documentColumn.toList ::
    (stepTokens (splitAt '.' h.field) ++ _ ++ ts)) = _
  rw [readId, if_pos rfl, List.append_assoc, readSteps_stepTokens (splitAt_ne_nil _ _)]
  show (readConversion (.closing :: .symbol ':' :: .symbol ':' :: .word "UUID".toList :: ts)).map _ = _
  rw [hconversion, Option.map_some, String.ofList_toList]
  rfl

/-! ## §2. One link, as it is read. -/

/-- What is selected from a table, up to the end of the subquery. -/
theorem tokens_from {table : String} (ht : IsName table) (hi : Balanced true inner) :
    tokens (" from " ++ table ++ " WHERE " ++ inner ++ ")") =
      .word "from".toList :: .word table.toList :: .word "WHERE".toList ::
        (tokens inner ++ [.closing]) := by
  have hassoc : " from " ++ table ++ " WHERE " ++ inner ++ ")" =
      " from " ++ (table ++ (" WHERE " ++ (inner ++ ")"))) := by
    simp only [String.append_assoc]
  have hblank : ∀ s, EndsName (" WHERE " ++ s) := EndsName.append (by decide)
  rw [hassoc, tokens_connector_append (by decide), tokens_word_append ht (hblank _),
    tokens_connector_append (by decide), tokens_append_closing hi.endsOutside rfl]
  rfl

theorem endsName_from (table inner : String) :
    EndsName (" from " ++ table ++ " WHERE " ++ inner ++ ")") := by
  rw [String.append_assoc, String.append_assoc, String.append_assoc]
  exact EndsName.append (by decide) _

/-- The tokens of a subquery from a table, up to its end. -/
def subqueryTokens (select : List Sql.Token) (table : String) (ts : List Sql.Token) :
    List Sql.Token :=
  .word "IN".toList :: .opening :: .word "SELECT".toList ::
    (select ++ .word "from".toList :: .word table.toList :: .word "WHERE".toList ::
      (ts ++ [.closing]))

/-- A test is read from its two ids and the balanced condition. -/
theorem readNested_test {tested selected : Operand} {front select : List Sql.Token}
    {table : String}
    (hfront : ∀ ts, readId (front ++ .word "IN".toList :: ts) =
      some (tested, .word "IN".toList :: ts))
    (hselect : ∀ ts, readId (select ++ .word "from".toList :: ts) =
      some (selected, .word "from".toList :: ts))
    (hc : Closed ts) :
    readNested (front ++ subqueryTokens select table ts) =
      .isIn tested selected table (readNested ts) := by
  have hinside : inside 0 (ts ++ [.closing]) = some ts := by
    rw [inside_skip hc]
    simp [inside]
  refine readNested_of_subquery (m := ⟨tested, selected, table, ts⟩) ?_
  unfold readSubquery? subqueryTokens
  rw [hfront]
  show (readId (select ++ .word "from".toList :: _)).bind _ = _
  rw [hselect]
  show (inside 0 (ts ++ [.closing])).bind _ = _
  rw [hinside]
  show some (SubqueryTest.mk tested selected (String.ofList table.toList) ts) = _
  rw [String.ofList_toList]

theorem Hop.tokens_intoParent (hh : h.IsNamed) (hi : Balanced true inner) :
    tokens (h.intoParent inner) =
      h.keyTokens ++ subqueryTokens [.word keyColumn.toList] h.target (tokens inner) := by
  have hassoc : h.intoParent inner = "(" ++ h.keyText ++ ")::UUID" ++ (" IN  ( SELECT " ++ (keyColumn
      ++ (" from " ++ h.target ++ " WHERE " ++ inner ++ ")"))) := by
    simp [Hop.intoParent, ← String.toList_inj]
  have hin : ∀ s, EndsName (" IN  ( SELECT " ++ s) := EndsName.append (by decide)
  rw [hassoc, Hop.tokens_keyText_append hh (hin _), tokens_connector_append (by decide),
    tokens_word_append (by decide) (endsName_from _ _), tokens_from hh.name_target hi]
  rfl

theorem Hop.readNested_intoParent (hh : h.IsNamed) (hi : Balanced true inner) :
    readNested (tokens (h.intoParent inner)) =
      .isIn h.keyOperand (.key none) h.target (readNested (tokens inner)) := by
  have hselect : ∀ ts, readId ([.word keyColumn.toList] ++ .word "from".toList :: ts) =
      some (.key none, .word "from".toList :: ts) := fun ts => rfl
  rw [Hop.tokens_intoParent hh hi]
  exact readNested_test (fun ts => h.readId_keyTokens _) hselect (closed_tokens hi)

theorem Hop.tokens_intoChild (hh : h.IsNamed) (hi : Balanced true inner) :
    tokens (h.intoChild inner) =
      [.word h.target.toList, .symbol '.', .word keyColumn.toList]
        ++ subqueryTokens h.keyTokens h.table (tokens inner) := by
  have hassoc : h.intoChild inner = h.target ++ ("." ++ (keyColumn ++ (" IN  ( SELECT " ++ ("("
      ++ h.keyText ++ ")::UUID" ++ (" from " ++ h.table ++ " WHERE " ++ inner ++ ")"))))) := by
    simp [Hop.intoChild, ← String.toList_inj]
  have hdot : ∀ s, EndsName ("." ++ s) := EndsName.append (by decide)
  have hin : ∀ s, EndsName (" IN  ( SELECT " ++ s) := EndsName.append (by decide)
  rw [hassoc, tokens_word_append hh.name_target (hdot _), tokens_connector_append (by decide),
    tokens_word_append (by decide) (hin _), tokens_connector_append (by decide),
    Hop.tokens_keyText_append hh (endsName_from _ _), tokens_from hh.name_table hi]
  rfl

theorem Hop.readNested_intoChild (hh : h.IsNamed) (hi : Balanced true inner) :
    readNested (tokens (h.intoChild inner)) =
      .isIn (.key (some h.target)) h.keyOperand h.table (readNested (tokens inner)) := by
  have hfront : ∀ ts, readId ([.word h.target.toList, .symbol '.', .word keyColumn.toList]
      ++ .word "IN".toList :: ts) = some (.key (some h.target), .word "IN".toList :: ts) := by
    intro ts
    show some (Operand.key (some (String.ofList h.target.toList)), _) = _
    rw [String.ofList_toList]
    rfl
  rw [Hop.tokens_intoChild hh hi]
  exact readNested_test hfront (fun ts => h.readId_keyTokens _) (closed_tokens hi)

theorem Hop.IsNamed.isBalanced (hh : h.IsNamed) : h.IsBalanced true where
  table := balanced_of_isIdentifier hh.table
  target := balanced_of_isIdentifier hh.target
  field := (IsBody.of_no_quote hh.field).balancedInside

/-! ## §3. Chains of links. -/

variable {link : Link} {links : List Link}

/-- The condition on the table that the link starts at, given the one on the
table that it leads to. -/
def Link.text : Link → String → String
  | .up h => h.intoParent
  | .down h => h.intoChild

/-- The test that a link is read as. -/
def Link.nest {Atom : Type} : Link → Nested Atom → Nested Atom
  | .up h => .isIn h.keyOperand (.key none) h.target
  | .down h => .isIn (.key (some h.target)) h.keyOperand h.table

theorem Link.balanced_text (hl : link.hop.IsNamed) (hi : Balanced true inner) :
    Balanced true (link.text inner) := by
  cases link with
  | up h => exact hl.isBalanced.intoParent hi
  | down h => exact hl.isBalanced.intoChild hi

theorem balanced_links (hl : ∀ link ∈ links, link.hop.IsNamed) (hi : Balanced true inner) :
    Balanced true (links.foldr Link.text inner) := by
  induction links with
  | nil => exact hi
  | cons link links ih =>
    rw [List.forall_mem_cons] at hl
    exact Link.balanced_text hl.1 (ih hl.2)

theorem Link.readNested_text (hl : link.hop.IsNamed) (hi : Balanced true inner) :
    readNested (tokens (link.text inner)) = link.nest (readNested (tokens inner)) := by
  cases link with
  | up h => exact Hop.readNested_intoParent hl hi
  | down h => exact Hop.readNested_intoChild hl hi

/-- **A chain between tables whose names are identifiers is read from its
words.** -/
theorem readNested_links (hl : ∀ link ∈ links, link.hop.IsNamed) (hi : Balanced true inner) :
    readNested (tokens (links.foldr Link.text inner))
      = links.foldr Link.nest (readNested (tokens inner)) := by
  induction links with
  | nil => rfl
  | cons link links ih =>
    rw [List.forall_mem_cons] at hl
    rw [List.foldr_cons, List.foldr_cons, Link.readNested_text hl.1 (balanced_links hl.2 hi),
      ih hl.2]

/-! ## §4. Chains over given tables. -/

theorem Hop.readTestOf_intoParent (hfield : '\'' ∉ h.field.toList) (inner : String) :
    readTestOf h.table h.target (h.intoParent inner).toList
      = some (h.keyOperand, .key none, inner.toList) := by
  have htext : (h.intoParent inner).toList = '(' :: (h.table.toList ++ '.' ::
      (documentColumn.toList ++ ((textSteps (splitAt '.' h.field)).toList ++ (")::UUID ".toList
        ++ ("IN  ( SELECT ".toList ++ ("id from ".toList ++ (h.target.toList
          ++ (" WHERE ".toList ++ (inner.toList ++ [')']))))))))) := by
    simp [Hop.intoParent, Hop.keyText, textPath, keyColumn]
  rw [htext]
  exact readTestOf_eq_some (readIdOf_field h.table hfield _) (readIdOf_bare h.target _)

theorem Hop.readTestOf_intoChild (hfield : '\'' ∉ h.field.toList) (inner : String) :
    readTestOf h.target h.table (h.intoChild inner).toList
      = some (.key (some h.target), h.keyOperand, inner.toList) := by
  have htext : (h.intoChild inner).toList = h.target.toList ++ '.' :: (keyColumn.toList ++ ' ' ::
      ("IN  ( SELECT ".toList ++ ('(' :: (h.table.toList ++ '.' :: (documentColumn.toList
        ++ ((textSteps (splitAt '.' h.field)).toList ++ (")::UUID ".toList ++ ("from ".toList
          ++ (h.table.toList ++ (" WHERE ".toList ++ (inner.toList ++ [')']))))))))))) := by
    simp [Hop.intoChild, Hop.keyText, textPath]
  rw [htext]
  exact readTestOf_eq_some (readIdOf_key h.target _) (readIdOf_field h.table hfield _)

/-- One link is one test, whatever the names of its two tables are. -/
theorem Link.readOver_text (hfield : '\'' ∉ link.hop.field.toList) (tables : List String)
    (inner : String) :
    readOver link.source (link.target :: tables) (link.text inner).toList
      = (readOver link.target tables inner.toList).map link.nest := by
  cases link with
  | up h => exact readOver_cons (h.readTestOf_intoParent hfield inner)
  | down h => exact readOver_cons (h.readTestOf_intoChild hfield inner)

/-- **A chain is read over its tables**, whatever their names are. -/
theorem readOver_links {first last : String} (hconnects : Connects first links last)
    (hfields : ∀ link ∈ links, '\'' ∉ link.hop.field.toList) (inner : String) :
    readOver first (links.map Link.target) (links.foldr Link.text inner).toList
      = some (links.foldr Link.nest (.atom inner)) := by
  induction links generalizing first with
  | nil =>
    show some (Nested.atom (String.ofList inner.toList)) = _
    rw [String.ofList_toList]
    rfl
  | cons link links ih =>
    rw [List.forall_mem_cons] at hfields
    obtain ⟨rfl, hrest⟩ := hconnects
    rw [List.map_cons, List.foldr_cons, Link.readOver_text hfields.1, ih hrest hfields.2]
    rfl

end CqlToSql
