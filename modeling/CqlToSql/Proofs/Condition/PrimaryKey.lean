/-
  CqlToSql.Proofs.Condition.PrimaryKey
  ────────────────────────────────────
  **Which ids a clause on the primary key selects.**  The condition is read as
  SQL and evaluated for a row whose id is a given UUID.  Ids are compared as
  numbers of 128 bits, and the literals are read in any letter case.

      keyTruth u sql      — the truth of a condition for the id `u`
      Addresses term u    — the term asks for `u`

  Main statement: equality selects the ids that the term addresses and
  inequality the others, the order relations take UUIDs only and compare
  numbers, and only a star before the end of the term is refused.
-/
import CqlToSql.Proofs.Condition.Outcome
import CqlToSql.Proofs.Sql.Literal
import CqlToSql.Proofs.Text.Uuid

/-! ## §1. Comments. -/

namespace CqlToSql.Sql

/-- What a character of SQL text is part of. -/
inductive Region where
  | code
  | literal
  | comment
  deriving Repr, DecidableEq

/-- The characters without comments.  A comment that is not nested is taken
for a blank. -/
def dropComments : Region → List Char → List Char
  | _, [] => []
  | .code, '/' :: '*' :: cs => ' ' :: dropComments .comment cs
  | .code, c :: cs => c :: dropComments (if c = '\'' then .literal else .code) cs
  | .literal, c :: cs => c :: dropComments (if c = '\'' then .code else .literal) cs
  | .comment, '*' :: '/' :: cs => dropComments .code cs
  | .comment, _ :: cs => dropComments .comment cs

/-- The text without its comments. -/
def withoutComments (s : String) : String := String.ofList (dropComments .code s.toList)

theorem dropComments_of_no_slash {cs : List Char} (h : '/' ∉ cs) {region : Region}
    (hr : region ≠ .comment) : dropComments region cs = cs := by
  induction cs generalizing region with
  | nil => cases region <;> rfl
  | cons c cs ih =>
    rw [List.mem_cons, not_or] at h
    cases region with
    | comment => exact absurd rfl hr
    | code =>
      rw [dropComments, ih h.2 (by split <;> simp)]
      rintro ds rfl
      exact absurd rfl h.1
    | literal => rw [dropComments, ih h.2 (by split <;> simp)]

theorem withoutComments_of_no_slash {s : String} (h : '/' ∉ s.toList) : withoutComments s = s := by
  rw [withoutComments, dropComments_of_no_slash h (by simp), String.ofList_toList]

end CqlToSql.Sql

namespace CqlToSql.Condition

open CqlToSql.Text CqlToSql.Sql

/-! ## §2. Truth. -/

/-- How an operator compares ids. -/
def keyOrder : List Char → Option (Uuid → Uuid → Bool)
  | ['='] => some fun u w => u == w
  | ['<', '>'] => some fun u w => u != w
  | ['<'] => some fun u w => decide (u < w)
  | ['>'] => some fun u w => decide (w < u)
  | ['<', '='] => some fun u w => decide (u ≤ w)
  | ['>', '='] => some fun u w => decide (w ≤ u)
  | _ => none

/-- The truth of a comparison of the id with a literal. -/
def comparedKey (u : Uuid) (operator body : List Char) : Truth :=
  match keyOrder operator, readUuid body with
  | some order, some w => .ofBool (order u w)
  | _, _ => .null

/-- The truth of a predicate for the id `u`. -/
def keyPredicate (u : Uuid) : Assignment
  | [t] => if t.isKeyword "true" then .yes else if t.isKeyword "false" then .no else .null
  | [.word column, .symbol c, .quoted body] =>
    if column = keyColumn.toList then comparedKey u [c] body else .null
  | [.word column, .symbol c, .symbol d, .quoted body] =>
    if column = keyColumn.toList then comparedKey u [c, d] body else .null
  | _ => .null

/-- The truth of a condition for the id `u`. -/
def keyTruth (u : Uuid) (sql : String) : Truth := evalText (keyPredicate u) (withoutComments sql)

theorem keyTruth_constantKey (u : Uuid) (equal : Bool) :
    keyTruth u (constantKey equal) = .ofBool equal := by
  have hread : ∀ equal, read (tokens (withoutComments (constantKey equal))) =
      .atom [.word (constantKey equal).toList] := by decide +kernel
  rw [keyTruth, evalText, hread]
  cases equal <;> rfl

theorem keyTruth_invalidKey (u : Uuid) (equal : Bool) :
    keyTruth u (invalidKey equal) = .ofBool (!equal) := by
  have hread : ∀ equal, read (tokens (withoutComments (invalidKey equal))) =
      .atom [.word (constantKey (!equal)).toList] := by decide +kernel
  rw [keyTruth, evalText, hread]
  cases equal <;> rfl

/-! ## §3. Comparisons as they are read. -/

/-- The operators that ids are compared with. -/
def keyOperators : List String := ["=", "<>", "<", ">", "<=", ">="]

/-- The tokens of a comparison of the id with a literal. -/
def keyTokens (operator body : String) : List Sql.Token :=
  .word keyColumn.toList :: (operator.toList.map .symbol ++ [.quoted body.toList])

variable {operator body rest : String}

theorem tokens_operator (h : operator ∈ keyOperators) (s : String) :
    tokens (operator ++ s) = operator.toList.map .symbol ++ tokens s := by
  have hsymbols : ∀ operator ∈ keyOperators,
      IsConnector operator ∧ tokens operator = operator.toList.map .symbol := by decide
  obtain ⟨hconnector, htokens⟩ := hsymbols operator h
  rw [tokens_connector_append hconnector, htokens]

theorem tokens_key_append (h : operator ∈ keyOperators) (hbody : '\'' ∉ body.toList)
    (hrest : rest.toList.head? ≠ some '\'') :
    tokens (keyColumn ++ operator ++ literal body ++ rest) =
      keyTokens operator body ++ tokens rest := by
  have hends : ∀ operator ∈ keyOperators, EndsName operator := by decide
  have hassoc : keyColumn ++ operator ++ literal body ++ rest =
      keyColumn ++ (operator ++ (literal body ++ rest)) := by
    simp only [String.append_assoc]
  rw [hassoc, tokens_word_append (by decide) ((hends _ h).append _), tokens_operator h,
    tokens_literal_append hbody hrest]
  simp [keyTokens]

theorem read_keyTokens (h : operator ∈ keyOperators) (body : String) :
    read (keyTokens operator body) = .atom (keyTokens operator body) := by
  simp only [keyOperators, List.mem_cons, List.not_mem_nil, or_false] at h
  rcases h with rfl | rfl | rfl | rfl | rfl | rfl <;> exact read_of_atom rfl rfl rfl rfl

theorem keyPredicate_keyTokens (h : operator ∈ keyOperators) (body : String) (u : Uuid) :
    keyPredicate u (keyTokens operator body) = comparedKey u operator.toList body.toList := by
  simp only [keyOperators, List.mem_cons, List.not_mem_nil, or_false] at h
  rcases h with rfl | rfl | rfl | rfl | rfl | rfl <;> rfl

/-! ## §4. The truth of comparisons and ranges. -/

variable {u w : Uuid} {order : Uuid → Uuid → Bool}

theorem keyPredicate_of_order (h : operator ∈ keyOperators)
    (horder : keyOrder operator.toList = some order) (hbody : readUuid body.toList = some w) :
    keyPredicate u (keyTokens operator body) = .ofBool (order u w) := by
  rw [keyPredicate_keyTokens h, comparedKey, horder, hbody]

theorem withoutComments_compared (h : operator ∈ keyOperators) (hbody : isUuid body = true) :
    withoutComments (keyColumn ++ operator ++ literal body)
      = keyColumn ++ operator ++ literal body := by
  have hoperators : ∀ operator ∈ keyOperators, '/' ∉ operator.toList := by decide
  have hin : '/' ∉ body.toList := not_mem_of_isUuid rfl (by decide) hbody
  exact withoutComments_of_no_slash (by simp [literal, keyColumn, hoperators _ h, hin])

/-- The text of a comparison with a UUID, as it is read. -/
theorem tokens_compared (h : operator ∈ keyOperators) (hbody : isUuid body = true) :
    tokens (keyColumn ++ operator ++ literal body) = keyTokens operator body := by
  have hquote : '\'' ∉ body.toList := not_mem_of_isUuid rfl (by decide) hbody
  have htokens : tokens (keyColumn ++ operator ++ literal body ++ "") =
      keyTokens operator body ++ tokens "" := tokens_key_append h hquote (by simp)
  have hempty : tokens "" = [] := rfl
  rwa [String.append_empty, hempty, List.append_nil] at htokens

/-- A comparison with a UUID compares the ids. -/
theorem keyTruth_compared (h : operator ∈ keyOperators)
    (horder : keyOrder operator.toList = some order) (hbody : readUuid body.toList = some w) :
    keyTruth u (keyColumn ++ operator ++ literal body) = .ofBool (order u w) := by
  have huuid : isUuid body = true := (exists_readUuid_iff body).1 ⟨w, hbody⟩
  rw [keyTruth, evalText, withoutComments_compared h huuid, tokens_compared h huuid,
    read_keyTokens h]
  exact keyPredicate_of_order h horder hbody

/-- Two comparisons in parentheses, with a word between them. -/
theorem tokens_two_keys {first second lowest highest junction : String} {word : List Char}
    (hf : first ∈ keyOperators) (hs : second ∈ keyOperators) (hl : '\'' ∉ lowest.toList)
    (hh : '\'' ∉ highest.toList) (hj : junction.toList.head? = some ' ')
    (hword : ∀ s, tokens (junction ++ s) = .word word :: tokens s) :
    tokens ("(" ++ keyColumn ++ first ++ literal lowest ++ (junction ++ keyColumn ++ second)
        ++ literal highest ++ ")") =
      .opening :: ((keyTokens first lowest ++ .word word :: keyTokens second highest)
        ++ [.closing]) := by
  have hassoc : "(" ++ keyColumn ++ first ++ literal lowest ++ (junction ++ keyColumn ++ second)
      ++ literal highest ++ ")" =
      "(" ++ (keyColumn ++ first ++ literal lowest
        ++ (junction ++ (keyColumn ++ second ++ literal highest ++ ")"))) := by
    simp only [String.append_assoc]
  have hclosing : tokens ")" = [.closing] := rfl
  have hstart : ∀ s : String, (junction ++ s).toList.head? ≠ some '\'' := by
    intro s
    rw [String.toList_append, List.head?_append, hj]
    simp
  rw [hassoc, tokens_opening, tokens_key_append hf hl (hstart _), hword,
    tokens_key_append hs hh (by simp), hclosing]
  simp

theorem read_key_and (lowest highest : String) :
    read (.opening :: ((keyTokens ">=" lowest ++ .word "and".toList :: keyTokens "<=" highest)
        ++ [.closing])) =
      .and (.atom (keyTokens ">=" lowest)) (.atom (keyTokens "<=" highest)) := by
  have hclosed : Closed (keyTokens ">=" lowest ++ .word "and".toList :: keyTokens "<=" highest) :=
    rfl
  have hcut : cutTop (Token.isKeyword "and") 0
      (keyTokens ">=" lowest ++ .word "and".toList :: keyTokens "<=" highest) =
      some (keyTokens ">=" lowest, keyTokens "<=" highest) := rfl
  rw [read_parentheses hclosed, read_of_and rfl hcut, read_keyTokens (by decide),
    read_keyTokens (by decide)]

theorem read_key_or (lowest highest : String) :
    read (.opening :: ((keyTokens "<" lowest ++ .word "or".toList :: keyTokens ">" highest)
        ++ [.closing])) =
      .or (.atom (keyTokens "<" lowest)) (.atom (keyTokens ">" highest)) := by
  have hclosed : Closed (keyTokens "<" lowest ++ .word "or".toList :: keyTokens ">" highest) :=
    rfl
  have hcut : cutTop (Token.isKeyword "or") 0
      (keyTokens "<" lowest ++ .word "or".toList :: keyTokens ">" highest) =
      some (keyTokens "<" lowest, keyTokens ">" highest) := rfl
  rw [read_parentheses hclosed, read_of_or hcut, read_keyTokens (by decide),
    read_keyTokens (by decide)]

theorem tokens_and_append (s : String) : tokens (" and " ++ s) = .word "and".toList :: tokens s :=
  tokens_connector_append (by decide) s

theorem tokens_or_append (s : String) : tokens (" or " ++ s) = .word "or".toList :: tokens s :=
  tokens_connector_append (by decide) s

/-- The tokens of a range, or of what lies outside. -/
def rangeTokens (equal : Bool) (lowest highest : String) : List Sql.Token :=
  .opening ::
    ((keyTokens (if equal then ">=" else "<") lowest
        ++ .word (if equal then "and" else "or").toList
          :: keyTokens (if equal then "<=" else ">") highest)
      ++ [.closing])

theorem withoutComments_keyRange {lowest highest : String} (hl : isUuid lowest = true)
    (hh : isUuid highest = true) (equal : Bool) :
    withoutComments (keyRange equal lowest highest) = keyRange equal lowest highest := by
  have hlslash : '/' ∉ lowest.toList := not_mem_of_isUuid rfl (by decide) hl
  have hhslash : '/' ∉ highest.toList := not_mem_of_isUuid rfl (by decide) hh
  refine withoutComments_of_no_slash ?_
  cases equal <;> simp [keyRange, keyColumn, hlslash, hhslash]

/-- The text of a range between UUIDs, as it is read. -/
theorem tokens_keyRange {lowest highest : String} (hl : isUuid lowest = true)
    (hh : isUuid highest = true) (equal : Bool) :
    tokens (keyRange equal lowest highest) = rangeTokens equal lowest highest := by
  have hlquote : '\'' ∉ lowest.toList := not_mem_of_isUuid rfl (by decide) hl
  have hhquote : '\'' ∉ highest.toList := not_mem_of_isUuid rfl (by decide) hh
  rw [keyRange_eq]
  cases equal with
  | true =>
    exact tokens_two_keys (by decide) (by decide) hlquote hhquote rfl tokens_and_append
  | false =>
    exact tokens_two_keys (by decide) (by decide) hlquote hhquote rfl tokens_or_append

/-- A condition for a range selects the ids between its ends, or the others. -/
theorem keyTruth_keyRange {lowest highest : String} {l h : Uuid}
    (hl : readUuid lowest.toList = some l) (hh : readUuid highest.toList = some h) (equal : Bool) :
    keyTruth u (keyRange equal lowest highest) =
      .ofBool (equal == (decide (l ≤ u) && decide (u ≤ h))) := by
  have hlow : isUuid lowest = true := (exists_readUuid_iff lowest).1 ⟨l, hl⟩
  have hhigh : isUuid highest = true := (exists_readUuid_iff highest).1 ⟨h, hh⟩
  rw [keyTruth, evalText, withoutComments_keyRange hlow hhigh, tokens_keyRange hlow hhigh]
  cases equal with
  | true =>
    show (read (.opening :: ((keyTokens ">=" lowest ++ .word "and".toList
      :: keyTokens "<=" highest) ++ [.closing]))).eval _ = _
    rw [read_key_and]
    show (keyPredicate u _).and (keyPredicate u _) = _
    rw [keyPredicate_of_order (by decide) rfl hl, keyPredicate_of_order (by decide) rfl hh,
      Truth.and_ofBool]
    simp
  | false =>
    show (read (.opening :: ((keyTokens "<" lowest ++ .word "or".toList
      :: keyTokens ">" highest) ++ [.closing]))).eval _ = _
    rw [read_key_or]
    show (keyPredicate u _).or (keyPredicate u _) = _
    rw [keyPredicate_of_order (by decide) rfl hl, keyPredicate_of_order (by decide) rfl hh,
      Truth.or_ofBool]
    -- an id is outside the range when it lies before or behind it
    simp only [← BitVec.not_le, decide_not, ← Bool.not_and]
    cases decide (l ≤ u) && decide (u ≤ h) <;> rfl

/-! ## §5. The ids that a term addresses. -/

/-- The term asks for the UUID: for any, for those with a beginning, or for
the one with this text. -/
def Addresses (term : String) (u : Uuid) : Prop :=
  term = "" ∨ (∃ start, term = start ++ "*" ∧ start.toList.map asciiLower <+: u.text) ∨
    ('*' ∉ term.toList ∧ term.toList.map asciiLower = u.text)

variable {start term sql : String} {equal : Bool}

/-- What is taken off is a star at the end. -/
theorem dropFinalStar_cases (term : String) :
    term = dropFinalStar term ++ "*" ∨
      (dropFinalStar term = term ∧ term.toList.getLast? ≠ some '*') := by
  unfold dropFinalStar
  split
  · rename_i cs hcs
    left
    have hterm : term.toList = cs.reverse ++ ['*'] := by
      rw [← List.reverse_reverse term.toList, hcs, List.reverse_cons]
    rw [← String.toList_inj, hterm]
    simp
  · rename_i hne
    right
    refine ⟨rfl, ?_⟩
    intro hlast
    obtain ⟨cs, hcs⟩ := List.getLast?_eq_some_iff.1 hlast
    exact hne cs.reverse (by simp [hcs])

theorem addresses_truncated : Addresses (start ++ "*") u ↔ start.toList.map asciiLower <+: u.text := by
  constructor
  · rintro (h | ⟨other, h, hprefix⟩ | ⟨h, -⟩)
    · simp at h
    · have hsame : start = other := by simpa using h
      rwa [hsame]
    · simp at h
  · intro h
    exact .inr (.inl ⟨start, rfl, h⟩)

theorem addresses_whole (hne : term ≠ "") (hstar : '*' ∉ term.toList) :
    Addresses term u ↔ term.toList.map asciiLower = u.text := by
  constructor
  · rintro (h | ⟨start, h, -⟩ | ⟨-, h⟩)
    · exact absurd h hne
    · rw [h] at hstar
      simp at hstar
    · exact h
  · intro h
    exact .inr (.inr ⟨hstar, h⟩)

/-- A term without a star selects the id with that text. -/
theorem keyTruth_whole (equal : Bool) (term : String) (u : Uuid) :
    keyTruth u (if isUuid term then keyColumn ++ (if equal then "=" else "<>") ++ "'" ++ term ++ "'"
        else invalidKey equal) =
      .ofBool (equal == decide (term.toList.map asciiLower = u.text)) := by
  simp only [← readUuid_eq_some_iff]
  split
  · rename_i huuid
    obtain ⟨w, hw⟩ := (exists_readUuid_iff term).2 huuid
    have hsame : decide (readUuid term.toList = some u) = (u == w) := by
      rw [hw, Bool.eq_iff_iff, decide_eq_true_eq, beq_iff_eq, Option.some_inj, eq_comm]
    rw [append_quoted, hsame]
    cases equal with
    | true =>
      rw [if_pos rfl, keyTruth_compared (by decide) rfl hw]
      simp
    | false =>
      rw [if_neg (by simp), keyTruth_compared (by decide) rfl hw]
      cases hb : u == w <;> simp [bne, hb]
  · rename_i huuid
    have hnone : ¬ readUuid term.toList = some u := fun hu =>
      huuid ((exists_readUuid_iff term).1 ⟨u, hu⟩)
    rw [keyTruth_invalidKey, decide_eq_false hnone]
    cases equal <;> rfl

/-- A term with a star at its end selects the ids that start with what is
before the star. -/
theorem keyTruth_truncated (equal : Bool) (start : String) (u : Uuid) :
    keyTruth u (if isUuid (uuidRange start).1 && isUuid (uuidRange start).2 then
        keyRange equal (uuidRange start).1 (uuidRange start).2 else invalidKey equal) =
      .ofBool (equal == decide (start.toList.map asciiLower <+: u.text)) := by
  simp only [isPrefix_text_iff]
  split
  · rename_i huuid
    rw [Bool.and_eq_true] at huuid
    obtain ⟨l, hl⟩ := (exists_readUuid_iff _).2 huuid.1
    obtain ⟨h, hh⟩ := (exists_readUuid_iff _).2 huuid.2
    rw [keyTruth_keyRange hl hh]
    simp [hl, hh]
  · rename_i huuid
    have hnone : ¬ ∃ l h, readUuid (uuidRange start).1.toList = some l ∧
        readUuid (uuidRange start).2.toList = some h ∧ l ≤ u ∧ u ≤ h := by
      rintro ⟨l, h, hl, hh, -⟩
      exact huuid (Bool.and_eq_true_iff.2
        ⟨(exists_readUuid_iff _).1 ⟨l, hl⟩, (exists_readUuid_iff _).1 ⟨h, hh⟩⟩)
    rw [keyTruth_invalidKey, decide_eq_false hnone]
    cases equal <;> rfl

/-- The condition holds for the ids that the term addresses, or for all
others. -/
theorem keyEquality_truth (h : keyEquality equal term = .ok sql) (u : Uuid) :
    ∃ addressed : Bool, keyTruth u sql = .ofBool (equal == addressed) ∧
      (addressed = true ↔ Addresses term u) := by
  unfold keyEquality at h
  simp only [← apply_ite Except.ok] at h
  split at h
  · -- no term, or the star alone: all ids
    rename_i hany
    cases h
    refine ⟨true, by simp [keyTruth_constantKey], ?_⟩
    rcases hany with rfl | rfl
    · simp [Addresses]
    · rw [show ("*" : String) = "" ++ "*" from rfl, addresses_truncated]
      simp
  · rename_i hany
    rw [not_or] at hany
    split at h
    · rename_i hstar
      cases h
      refine ⟨_, keyTruth_whole equal term u, ?_⟩
      rw [decide_eq_true_eq, addresses_whole hany.1 (by simpa using hstar)]
    · rename_i hstar
      split at h
      · cases h
      · rename_i hstart
        have hterm : term = dropFinalStar term ++ "*" := by
          rcases dropFinalStar_cases term with hterm | ⟨hsame, -⟩
          · exact hterm
          · rw [hsame] at hstart
            simp_all
        cases h
        refine ⟨_, keyTruth_truncated equal (dropFinalStar term) u, ?_⟩
        rw [decide_eq_true_eq, ← addresses_truncated, ← hterm]

/-- The star at the end apart, the term has a star just when it has one before
its last character. -/
theorem star_mem_dropFinalStar_iff (term : String) :
    '*' ∈ (dropFinalStar term).toList ↔ '*' ∈ term.toList.dropLast := by
  rcases dropFinalStar_cases term with hterm | ⟨hsame, hlast⟩
  · have hdrop : term.toList.dropLast = (dropFinalStar term).toList := by
      rw [congrArg String.toList hterm]
      simp
    rw [hdrop]
  · rw [hsame]
    cases hcs : term.toList.getLast? with
    | none => simp [List.getLast?_eq_none_iff.1 hcs]
    | some c =>
      obtain ⟨cs, hterm⟩ := List.getLast?_eq_some_iff.1 hcs
      have hc : '*' ≠ c := by
        rintro rfl
        exact hlast hcs
      simp [hterm, hc]

/-- A star before the end of the term is refused, and nothing else. -/
theorem keyEquality_error_iff (equal : Bool) (term : String) :
    (∃ fault, keyEquality equal term = .error fault) ↔ '*' ∈ term.toList.dropLast := by
  rw [← star_mem_dropFinalStar_iff]
  unfold keyEquality
  simp only [← apply_ite Except.ok]
  split
  · rename_i hany
    rcases hany with rfl | rfl <;> simp [dropFinalStar]
  · split
    · rename_i hstar
      -- without a star nothing is taken off
      have hstart : '*' ∉ (dropFinalStar term).toList := by
        rw [star_mem_dropFinalStar_iff]
        intro hmem
        simp [List.mem_of_mem_dropLast hmem] at hstar
      simp [hstart]
    · split
      · rename_i hstart
        simpa using hstart
      · rename_i hstart
        simpa using hstart

/-- Inequality succeeds where equality does, and is true of the ids that
equality is false of. -/
theorem keyEquality_negated (h : keyEquality true term = .ok sql) (u : Uuid) :
    ∃ other, keyEquality false term = .ok other ∧
      (keyTruth u other = .yes ↔ keyTruth u sql = .no) := by
  -- the two relations fail for the same terms
  have hok : ∃ other, keyEquality false term = .ok other := by
    cases hother : keyEquality false term with
    | ok other => exact ⟨other, rfl⟩
    | error fault =>
      have hstar := (keyEquality_error_iff false term).1 ⟨fault, hother⟩
      obtain ⟨_, herror⟩ := (keyEquality_error_iff true term).2 hstar
      rw [herror] at h
      cases h
  obtain ⟨other, hother⟩ := hok
  obtain ⟨addressed, htruth, hiff⟩ := keyEquality_truth h u
  obtain ⟨addressed', htruth', hiff'⟩ := keyEquality_truth hother u
  have hsame : addressed' = addressed := by
    rw [Bool.eq_iff_iff, hiff, hiff']
  refine ⟨other, hother, ?_⟩
  rw [htruth, htruth', hsame, Truth.ofBool_eq_yes_iff, Truth.ofBool_eq_no_iff]
  cases addressed <;> simp

/-! ## §6. Clauses on the primary key. -/

/-- The order relations, and the order of numbers that each stands for. -/
def numericOrders : List (String × (Nat → Nat → Prop)) :=
  [("<", (· < ·)), (">", (· > ·)), ("<=", (· ≤ ·)), (">=", (· ≥ ·))]

theorem primaryKey_equal {base : String} (h : base ∈ ["=", "=="]) (term : String) :
    primaryKey ⟨base, []⟩ term = keyEquality true term := by
  simp only [List.mem_cons, List.not_mem_nil, or_false] at h
  rcases h with rfl | rfl <;> rfl

/-- An order relation takes UUIDs only, and compares the id with them. -/
theorem primaryKey_ordered {base : String} (h : base ∈ [">", "<", ">=", "<="]) (term : String) :
    primaryKey ⟨base, []⟩ term =
      if isUuid term then .ok (keyColumn ++ base ++ literal term)
      else .error (.query (.keyComparison base term)) := by
  rw [primaryKey, if_pos h, append_quoted]

theorem keyTruth_ordered {base : String} {order : Nat → Nat → Prop}
    (h : (base, order) ∈ numericOrders) (hw : readUuid term.toList = some w) (u : Uuid) :
    keyTruth u (keyColumn ++ base ++ literal term) = .yes ↔ order u.toNat w.toNat := by
  simp only [numericOrders, List.mem_cons, List.not_mem_nil, or_false, Prod.mk.injEq] at h
  rcases h with ⟨rfl, rfl⟩ | ⟨rfl, rfl⟩ | ⟨rfl, rfl⟩ | ⟨rfl, rfl⟩ <;>
    rw [keyTruth_compared (by decide) rfl hw, Truth.ofBool_eq_yes_iff, decide_eq_true_eq] <;>
    rfl

/-- **A clause on the primary key selects exactly the ids that it addresses.**
Equality is true of the ids that the term addresses, and inequality of those
that equality is false of; both fail just when the term has a star before its
last character.  The order relations succeed just for UUIDs, in any letter
case, and compare them as numbers. -/
theorem primaryKey_selects (term : String) (u : Uuid) :
    (∀ base ∈ ["=", "=="], ∀ sql, primaryKey ⟨base, []⟩ term = .ok sql →
      (keyTruth u sql = .yes ↔ Addresses term u)) ∧
    (∀ base ∈ ["=", "=="], ∀ sql, primaryKey ⟨base, []⟩ term = .ok sql →
      ∃ other, primaryKey ⟨"<>", []⟩ term = .ok other ∧
        (keyTruth u other = .yes ↔ keyTruth u sql = .no)) ∧
    (∀ base ∈ ["=", "==", "<>"], (∃ fault, primaryKey ⟨base, []⟩ term = .error fault) ↔
      '*' ∈ term.toList.dropLast) ∧
    ∀ base order, (base, order) ∈ numericOrders →
      ((∃ sql, primaryKey ⟨base, []⟩ term = .ok sql) ↔
        ∃ w : Uuid, term.toList.map asciiLower = w.text) ∧
      ∀ sql (w : Uuid), primaryKey ⟨base, []⟩ term = .ok sql →
        term.toList.map asciiLower = w.text →
        (keyTruth u sql = .yes ↔ order u.toNat w.toNat) := by
  refine ⟨?_, ?_, ?_, ?_⟩
  · intro base hbase sql h
    rw [primaryKey_equal hbase] at h
    obtain ⟨addressed, htruth, hiff⟩ := keyEquality_truth h u
    rw [htruth, Truth.ofBool_eq_yes_iff, ← hiff]
    simp
  · intro base hbase sql h
    rw [primaryKey_equal hbase] at h
    exact keyEquality_negated h u
  · intro base hbase
    simp only [List.mem_cons, List.not_mem_nil, or_false] at hbase
    rcases hbase with rfl | rfl | rfl
    · exact keyEquality_error_iff true term
    · exact keyEquality_error_iff true term
    · exact keyEquality_error_iff false term
  · intro base order hmem
    have hbase : base ∈ [">", "<", ">=", "<="] := by
      simp only [numericOrders, List.mem_cons, List.not_mem_nil, or_false, Prod.mk.injEq] at hmem
      rcases hmem with ⟨rfl, -⟩ | ⟨rfl, -⟩ | ⟨rfl, -⟩ | ⟨rfl, -⟩ <;> decide
    rw [primaryKey_ordered hbase]
    simp only [← readUuid_eq_some_iff, exists_readUuid_iff]
    refine ⟨by split <;> simp_all, ?_⟩
    intro sql w h hw
    rw [if_pos ((exists_readUuid_iff term).1 ⟨w, hw⟩)] at h
    cases h
    exact keyTruth_ordered hmem hw u

/-- The beginning of an id in capital letters that ends behind a hyphen, and the
greatest id that starts with it; that id is less than the next beginning. -/
theorem primaryKey_selects_greatest :
    primaryKey ⟨"=", []⟩ "0000000A-*" = .ok (keyRange true
      "0000000A-0000-0000-0000-000000000000" "0000000A-ffff-ffff-ffff-ffffffffffff") ∧
    keyTruth (BitVec.ofNat 128 0x0000000affffffffffffffffffffffff) (keyRange true
      "0000000A-0000-0000-0000-000000000000" "0000000A-ffff-ffff-ffff-ffffffffffff") = .yes ∧
    keyTruth (BitVec.ofNat 128 0x0000000affffffffffffffffffffffff)
      "id<'0000000B-0000-0000-0000-000000000000'" = .yes := by
  have hrange : primaryKey ⟨"=", []⟩ "0000000A-*" = .ok (keyRange true
      "0000000A-0000-0000-0000-000000000000" "0000000A-ffff-ffff-ffff-ffffffffffff") := by
    decide +kernel
  have hless : primaryKey ⟨"<", []⟩ "0000000B-0000-0000-0000-000000000000" = .ok
      "id<'0000000B-0000-0000-0000-000000000000'" := by
    decide +kernel
  refine ⟨hrange, ((primaryKey_selects _ _).1 "=" (by decide) _ hrange).2 ?_, ?_⟩
  · exact .inr (.inl ⟨"0000000A-", rfl, by decide +kernel⟩)
  · refine (((primaryKey_selects _ _).2.2.2 "<" (· < ·) (by simp [numericOrders])).2 _
      (BitVec.ofNat 128 0x0000000b000000000000000000000000) hless (by decide +kernel)).2 ?_
    decide

end CqlToSql.Condition
