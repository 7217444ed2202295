/-
  CqlToSql.Proofs.Condition.FullTextQuery
  ───────────────────────────────────────
  **Which full text searches the database can read.**  The query of a search
  is a flat one:

      operand operator operand operator … operand

  with one operator throughout, and at least one character in each operand.
  An operator that lacks an operand on one of its sides, or a mark of
  truncation with no character before it, is an error of the query.

  The operand of a word has the characters of that word, less the quotes it
  starts with.  Main statement: the query of a search is flat just when each
  of its words has a character other than a quote.
-/
import CqlToSql.Proofs.Condition.SearchWords
import CqlToSql.Proofs.Term.FullText

namespace CqlToSql.Term

open CqlToSql.Text
open CqlToSql.Sql

/-! ## §1. Flat queries. -/

/-- Reads the operand that a query starts with: its characters, whether it asks
for any end, and the rest of the query. -/
def readFirstOperand : List Char → List Char × Bool × List Char
  | [] => ([], false, [])
  | ':' :: '*' :: cs => ([], true, cs)
  | '\\' :: c :: cs => Prod.map (c :: ·) id (readFirstOperand cs)
  | c :: cs =>
    if c = '\\' ∨ c ∈ queryMarks ∨ isBlank c = true then ([], false, c :: cs)
    else Prod.map (c :: ·) id (readFirstOperand cs)

/-- The query starts with an operand that has a character, and `rest` follows.
A quote would start an operand of another form. -/
def StartsWithOperand (query rest : List Char) : Prop :=
  query.head? ≠ some '\'' ∧
    ∃ cs truncated, cs ≠ [] ∧ readFirstOperand query = (cs, truncated, rest)

/-- Operands with the operator between each two of them. -/
inductive IsFlatQuery (operator : List Char) : List Char → Prop where
  | last {query : List Char} (h : StartsWithOperand query []) : IsFlatQuery operator query
  | next {query rest : List Char} (h : StartsWithOperand query (operator ++ rest))
      (hrest : IsFlatQuery operator rest) : IsFlatQuery operator query

/-- The text is an operator: an operand ends before it, and it is written in a
literal as it is. -/
structure IsQueryOperator (operator : List Char) : Prop where
  ends : operator.head?.any
    (fun c => c != '\\' && c != ':' && (queryMarks.contains c || isBlank c)) = true
  plain : undouble operator = some operator

variable {operator query rest text cs : List Char} {truncated : Bool}

/-- A query that starts without a character is none. -/
theorem not_isFlatQuery_of_nil (h : (readFirstOperand query).1 = []) :
    ¬ IsFlatQuery operator query := by
  have hstart : ∀ rest, ¬ StartsWithOperand query rest := by
    rintro rest ⟨-, cs, truncated, hne, hread⟩
    rw [hread] at h
    exact hne h
  intro hflat
  cases hflat with
  | last hfirst => exact hstart _ hfirst
  | next hfirst _ => exact hstart _ hfirst

theorem IsQueryOperator.readFirstOperand_append (h : IsQueryOperator operator)
    (rest : List Char) : readFirstOperand (operator ++ rest) = ([], false, operator ++ rest) := by
  cases operator with
  | nil => exact absurd h.ends (by simp)
  | cons c cs =>
    have hc := h.ends
    simp only [List.head?_cons, Option.any_some, Bool.and_eq_true, bne_iff_ne, ne_eq,
      Bool.or_eq_true, List.contains_iff_mem] at hc
    rw [List.cons_append, readFirstOperand, if_pos (.inr hc.2)]
    · rintro ds rfl
      exact absurd rfl hc.1.2
    · rintro d ds rfl
      exact absurd rfl hc.1.1

theorem readFirstOperand_plain {c : Char} (hbackslash : c ≠ '\\') (hmark : c ∉ queryMarks)
    (hblank : isBlank c = false) (cs : List Char) :
    readFirstOperand (c :: cs) = Prod.map (c :: ·) id (readFirstOperand cs) := by
  rw [readFirstOperand, if_neg (by simp [hbackslash, hmark, hblank])]
  · rintro ds rfl
    exact absurd (by decide) hmark
  · rintro d ds rfl
    exact absurd rfl hbackslash

theorem map_cons_eq_iff {c : Char} {read : List Char × Bool × List Char} :
    Prod.map (c :: ·) id read = (cs, truncated, rest) ↔
      ∃ ds, read = (ds, truncated, rest) ∧ cs = c :: ds := by
  obtain ⟨ds, t, r⟩ := read
  constructor
  · intro h
    cases h
    exact ⟨ds, rfl, rfl⟩
  · rintro ⟨ds, hread, rfl⟩
    cases hread
    rfl

/-- An operand that is read to its end is read so too when a text follows that
ends it. -/
theorem readFirstOperand_append (h : readQueryOperand text = (cs, truncated, []))
    (hblank : ∀ c ∈ text, isBlank c = false)
    (hrest : readFirstOperand rest = ([], false, rest)) :
    readFirstOperand (text ++ rest) = (cs, truncated, rest) := by
  -- the two readers differ in blanks alone, and the operand has none
  fun_induction readQueryOperand text generalizing cs truncated with
  | case1 =>
    cases h
    exact hrest
  | case2 =>
    cases h
    rfl
  | case3 c text ih =>
    obtain ⟨ds, hds, rfl⟩ := map_cons_eq_iff.1 h
    show readFirstOperand ('\\' :: c :: (text ++ rest)) = _
    rw [readFirstOperand, ih hds fun d hd => hblank d (by simp [hd])]
    rfl
  | case4 => cases h
  | case5 c text _ _ hc ih =>
    rw [not_or] at hc
    obtain ⟨ds, hds, rfl⟩ := map_cons_eq_iff.1 h
    rw [List.cons_append, readFirstOperand_plain hc.1 hc.2 (hblank c List.mem_cons_self),
      ih hds fun d hd => hblank d (List.mem_cons_of_mem c hd)]
    rfl

/-- Besides the characters it is read as, an operand holds escapes and the mark
of truncation alone. -/
theorem mem_of_readQueryOperand (h : readQueryOperand text = (cs, truncated, [])) {c : Char}
    (hc : c ∈ text) : c ∈ cs ∨ c ∈ ['\\', ':', '*'] := by
  fun_induction readQueryOperand text generalizing cs truncated with
  | case1 => cases hc
  | case2 => exact .inr (List.mem_cons_of_mem _ hc)
  | case3 d text ih =>
    obtain ⟨ds, hds, rfl⟩ := map_cons_eq_iff.1 h
    rcases List.mem_cons.1 hc with rfl | hc
    · exact .inr (by decide)
    · rcases List.mem_cons.1 hc with rfl | hc
      · exact .inl List.mem_cons_self
      · exact (ih hds hc).imp_left (List.mem_cons_of_mem d)
  | case4 => cases h
  | case5 d text _ _ _ ih =>
    obtain ⟨ds, hds, rfl⟩ := map_cons_eq_iff.1 h
    rcases List.mem_cons.1 hc with rfl | hc
    · exact .inl List.mem_cons_self
    · exact (ih hds hc).imp_left (List.mem_cons_of_mem d)

theorem head?_of_readQueryOperand (h : readQueryOperand text = (cs, truncated, []))
    (hcs : cs.head? ≠ some '\'') : text.head? ≠ some '\'' := by
  cases text with
  | nil => simp
  | cons c text =>
    rintro hhead
    cases hhead
    rw [readQueryOperand_plain (by decide) (by decide)] at h
    obtain ⟨ds, -, rfl⟩ := map_cons_eq_iff.1 h
    exact hcs rfl

/-! ## §2. The operand of a word. -/

/-- The word stands for a character other than a quote. -/
def HasCharacter (word : List Char) : Prop := ∃ c ∈ wordCharacters word, c ≠ '\''

/-- An operand before this text ends there. -/
structure EndsOperand (rest : List Char) : Prop where
  read : readFirstOperand rest = ([], false, rest)
  unquoted : rest.head? ≠ some '\''

theorem endsOperand_nil : EndsOperand [] := ⟨rfl, by simp⟩

theorem IsQueryOperator.endsOperand_append (h : IsQueryOperator operator) (rest : List Char) :
    EndsOperand (operator ++ rest) where
  read := h.readFirstOperand_append rest
  unquoted := by
    intro hhead
    cases operator with
    | nil => exact absurd h.ends (by simp)
    | cons c cs =>
      cases hhead
      have hends := h.ends
      rw [List.head?_cons, Option.any_some] at hends
      exact absurd hends (by decide)

theorem mem_of_mem_wordCharacters {c : Char} {word : List Char} (h : c ∈ wordCharacters word) :
    c ∈ word := by
  fun_induction wordCharacters word with
  | case1 => cases h
  | case2 => cases h
  | case3 => cases h
  | case4 d word ih =>
    rcases List.mem_cons.1 h with rfl | h
    · simp
    · simp [ih h]
  | case5 d word _ _ _ ih =>
    rcases List.mem_cons.1 h with rfl | h
    · exact List.mem_cons_self
    · exact List.mem_cons_of_mem d (ih h)

theorem dropQuotes_ne_nil_iff {word : List Char} :
    (wordCharacters word).dropWhile (· == '\'') ≠ [] ↔ HasCharacter word := by
  rw [ne_eq, List.dropWhile_eq_nil_iff]
  simp [HasCharacter]

theorem head?_dropWhile_quote (cs : List Char) :
    (cs.dropWhile (· == '\'')).head? ≠ some '\'' := by
  intro hhead
  have hfirst := List.head?_dropWhile_not (· == '\'') cs
  rw [hhead] at hfirst
  simp at hfirst

/-- Before a text that ends it, the operand of a word is read as an operand just
when the word has a character. -/
theorem exists_startsWithOperand_iff {word operand : String}
    (hword : ∀ c ∈ word.toList, isBlank c = false) (h : lexeme word = .ok operand) :
    ∃ text, undouble operand.toList = some text ∧ ∀ rest, EndsOperand rest → ∀ rest',
      StartsWithOperand (text ++ rest) rest' ↔ rest' = rest ∧ HasCharacter word.toList := by
  rw [lexeme, trim_eq_self hword] at h
  obtain ⟨chars, hpieces, rfl⟩ : ∃ chars, lexemePieces false (pieces word.toList) = .ok chars ∧
      String.ofList chars = operand := by
    cases hp : lexemePieces false (pieces word.toList) with
    | error fault =>
      rw [hp] at h
      cases h
    | ok chars =>
      rw [hp] at h
      cases h
      exact ⟨chars, rfl, rfl⟩
  obtain ⟨truncated, ⟨text, htext, hread⟩, -⟩ := exists_readsAs_lexemePieces hpieces
  -- the blanks are those of the word, for escapes and the mark of truncation add none
  have hblank : ∀ c ∈ text, isBlank c = false := by
    intro c hc
    rcases mem_of_readQueryOperand hread hc with hc | hc
    · exact hword c (mem_of_mem_wordCharacters ((List.dropWhile_sublist _).mem hc))
    · simp only [List.mem_cons, List.not_mem_nil, or_false] at hc
      rcases hc with rfl | rfl | rfl <;> decide
  refine ⟨text, by rwa [String.toList_ofList], fun rest hrest rest' => ?_⟩
  have hwhole := readFirstOperand_append hread hblank hrest.read
  have hquote : (text ++ rest).head? ≠ some '\'' := by
    have hhead := head?_of_readQueryOperand hread (head?_dropWhile_quote _)
    cases text with
    | nil => exact hrest.unquoted
    | cons c text => exact hhead
  rw [← dropQuotes_ne_nil_iff]
  constructor
  · rintro ⟨-, cs, t, hne, hcs⟩
    rw [hwhole] at hcs
    cases hcs
    exact ⟨rfl, hne⟩
  · rintro ⟨rfl, hne⟩
    exact ⟨hquote, _, truncated, hne, hwhole⟩

end CqlToSql.Term

namespace CqlToSql.Condition

open CqlToSql.Text
open CqlToSql.Sql
open CqlToSql.Term (HasCharacter IsFlatQuery IsQueryOperator StartsWithOperand)

/-! ## §3. The query of a list of words. -/

variable {term operator body : String} {f : CqlToSql.Field} {m : Matching} {ix : FieldIndexes}
  {ws operands : List String}

theorem lexemes_cons_eq_ok {w : String} (h : lexemes (w :: ws) = .ok operands) :
    ∃ first others, Term.lexeme w = .ok first ∧ lexemes ws = .ok others ∧
      operands = first :: others := by
  rw [lexemes] at h
  split at h
  · cases h
  · rename_i first hfirst
    split at h
    · cases h
    · rename_i others hothers
      cases h
      exact ⟨first, others, hfirst, hothers, rfl⟩

theorem isFlatQuery_iff_of_end {query op : List Char} {p : Prop}
    (h : ∀ rest, StartsWithOperand query rest ↔ rest = [] ∧ p) : IsFlatQuery op query ↔ p := by
  constructor
  · intro hflat
    cases hflat with
    | last hstart => exact ((h _).1 hstart).2
    | next hstart hrest => exact ((h _).1 hstart).2
  · intro hp
    exact .last ((h _).2 ⟨rfl, hp⟩)

theorem isFlatQuery_iff_of_operator {query next op : List Char} {p : Prop}
    (h : ∀ rest, StartsWithOperand query rest ↔ rest = op ++ next ∧ p) (hop : op ≠ []) :
    IsFlatQuery op query ↔ p ∧ IsFlatQuery op next := by
  constructor
  · intro hflat
    cases hflat with
    | last hstart => exact absurd ((h _).1 hstart).1 (by simp [hop])
    | next hstart hrest =>
      obtain ⟨heq, hp⟩ := (h _).1 hstart
      rw [List.append_cancel_left heq] at hrest
      exact ⟨hp, hrest⟩
  · rintro ⟨hp, hnext⟩
    exact .next ((h _).2 ⟨rfl, hp⟩) hnext

/-- The operands of words, with an operator between them, make a flat query just
when each word has a character. -/
theorem exists_isFlatQuery_iff (hop : IsQueryOperator operator.toList) (hws : ws ≠ [])
    (hblank : ∀ w ∈ ws, ∀ c ∈ w.toList, isBlank c = false) (h : lexemes ws = .ok operands) :
    ∃ query, undouble (joinWith operator operands).toList = some query ∧
      (IsFlatQuery operator.toList query ↔ ∀ w ∈ ws, HasCharacter w.toList) := by
  have hne : operator.toList ≠ [] := by
    intro hnil
    have hends := hop.ends
    rw [hnil] at hends
    cases hends
  -- each operand ends where the operator before the next one starts
  induction ws generalizing operands with
  | nil => exact absurd rfl hws
  | cons w ws ih =>
    obtain ⟨first, others, hfirst, hothers, rfl⟩ := lexemes_cons_eq_ok h
    obtain ⟨text, htext, hstart⟩ :=
      Term.exists_startsWithOperand_iff (hblank w List.mem_cons_self) hfirst
    cases ws with
    | nil =>
      cases hothers
      have hlast := hstart [] Term.endsOperand_nil
      rw [List.append_nil] at hlast
      exact ⟨text, htext, by rw [isFlatQuery_iff_of_end hlast]; simp⟩
    | cons w' ws =>
      obtain ⟨next, hnext, hflat⟩ := ih (List.cons_ne_nil w' ws)
        (fun v hv => hblank v (List.mem_cons_of_mem w hv)) hothers
      obtain ⟨second, others, -, -, rfl⟩ := lexemes_cons_eq_ok hothers
      refine ⟨text ++ (operator.toList ++ next), ?_, ?_⟩
      · rw [joinWith, String.toList_append, String.toList_append, List.append_assoc,
          undouble_append htext, undouble_append hop.plain, hnext]
        rfl
      · rw [isFlatQuery_iff_of_operator (hstart _ (hop.endsOperand_append next)) hne, hflat]
        exact (List.forall_mem_cons (p := fun v : String => HasCharacter v.toList)).symm

/-! ## §4. Full text searches. -/

theorem wordsText_inj {a b : String} (h : wordsText f ix a = wordsText f ix b) : a = b := by
  unfold wordsText Folding.apply literal unaccented at h
  split at h <;> simpa [wordsFolding] using h

/-- A search for words is neither of the conditions without words. -/
theorem wordsText_ne (f : CqlToSql.Field) (ix : FieldIndexes) (body : String) :
    wordsText f ix body ≠ "true" ∧ wordsText f ix body ≠ f.text ++ " ~ ''" := by
  constructor
  · -- `to_tsvector` and `true` differ in their second character
    intro h
    have hsecond := congrArg (fun s : String => s.toList[1]?) h
    unfold wordsText at hsecond
    simp only [String.append_assoc] at hsecond
    rw [String.toList_append, List.getElem?_append_left (by decide)] at hsecond
    exact absurd hsecond (by decide)
  · -- the one ends with a parenthesis, the other with a quote
    intro h
    have hlast := congrArg (fun s : String => s.toList.getLast?) h
    unfold wordsText at hlast
    simp only [String.toList_append, List.getLast?_append] at hlast
    exact absurd (Option.some.inj hlast : ')' = '\'') (by decide)

theorem words_strategy {relation : String} (h : strategy? relation m = some (.words operator)) :
    (relation, operator) ∈ [("=", "<->"), ("adj", "<->"), ("all", " & "), ("any", " | ")] := by
  unfold strategy? at h
  grind

theorem isQueryOperator_of_mem {relation : String}
    (h : (relation, operator) ∈ [("=", "<->"), ("adj", "<->"), ("all", " & "), ("any", " | ")]) :
    IsQueryOperator operator.toList := by
  simp only [List.mem_cons, Prod.mk.injEq, List.not_mem_nil, or_false] at h
  rcases h with ⟨-, rfl⟩ | ⟨-, rfl⟩ | ⟨-, rfl⟩ | ⟨-, rfl⟩ <;> exact ⟨by decide, rfl⟩

theorem words_eq_wordsText (h : (words term operator f m ix).result = .ok (wordsText f ix body)) :
    ∃ operands, Text.words (dropStrayStars term) ≠ [] ∧
      lexemes (Text.words (dropStrayStars term)) = .ok operands ∧
      body = joinWith operator operands := by
  obtain ⟨htrue, hempty⟩ := wordsText_ne f ix body
  rcases words_outcome h with ⟨-, hsql⟩ | ⟨-, hsql⟩ | ⟨-, hne, operands, hoperands, hsql⟩
  · exact absurd hsql htrue
  · exact absurd hsql hempty
  · rw [words_trim] at hoperands
    rw [ne_eq, trim_eq_empty_iff] at hne
    exact ⟨operands, hne, hoperands, wordsText_inj hsql⟩

/-- A relation that asks for words has one full text operator.  When a term is
searched by it, the query, taken out of its literal, is a flat one with that
operator just when each word that is searched for has a character other than a
quote. -/
theorem words_query_flat_iff {relation : String}
    (hs : strategy? relation m = some (.words operator))
    (h : (words term operator f m ix).result = .ok (wordsText f ix body)) :
    (relation, operator) ∈ [("=", "<->"), ("adj", "<->"), ("all", " & "), ("any", " | ")] ∧
    ∃ query, undouble body.toList = some query ∧
      (IsFlatQuery operator.toList query ↔
        ∀ w ∈ Text.words (dropStrayStars term), HasCharacter w.toList) := by
  have hoperator := words_strategy hs
  obtain ⟨operands, hne, hoperands, rfl⟩ := words_eq_wordsText h
  exact ⟨hoperator, exists_isFlatQuery_iff (isQueryOperator_of_mem hoperator) hne
    (fun w hw => no_blank_of_mem_words hw) hoperands⟩

/-- Quotes inside a word are doubled, a bracket is escaped, a truncated word and
one that starts with a quote are operands as well. -/
theorem words_query_flat_with_quotes :
    (words "it's (a* 'b" " | " (CqlToSql.Field.at "t.jsonb" "f") .initial {}).result
      = .ok (wordsText (CqlToSql.Field.at "t.jsonb" "f") {} "it''s | \\(a:* | b") ∧
    IsFlatQuery " | ".toList "it's | \\(a:* | b".toList := by
  have hresult : (words "it's (a* 'b" " | " (CqlToSql.Field.at "t.jsonb" "f") .initial {}).result
      = .ok (wordsText (CqlToSql.Field.at "t.jsonb" "f") {} "it''s | \\(a:* | b") :=
    Logged.result_eq_ok_iff.2 (by decide +kernel)
  have hs : strategy? "any" .initial = some (.words " | ") := by decide
  obtain ⟨-, query, hquery, hflat⟩ := words_query_flat_iff hs hresult
  have hwords : Text.words (dropStrayStars "it's (a* 'b") = ["it's", "(a*", "'b"] := by
    decide +kernel
  rw [hwords] at hflat
  have hbody : undouble "it''s | \\(a:* | b".toList = some "it's | \\(a:* | b".toList := by
    decide +kernel
  rw [hbody] at hquery
  cases hquery
  refine ⟨hresult, hflat.2 ?_⟩
  simp only [List.forall_mem_cons, List.not_mem_nil, false_imp_iff, implies_true, and_true]
  exact ⟨⟨'i', by decide, by decide⟩, ⟨'(', by decide, by decide⟩, ⟨'b', by decide, by decide⟩⟩

/-- A star at the beginning of a term leaves a mark of truncation alone, and a
quote between the words leaves nothing. -/
theorem words_query_lacks_operand :
    (words "* abc" "<->" (CqlToSql.Field.at "t.jsonb" "f") .initial {}).result
      = .ok (wordsText (CqlToSql.Field.at "t.jsonb" "f") {} ":*<->abc") ∧
    ¬ IsFlatQuery "<->".toList ":*<->abc".toList ∧
    (words "abc '" "<->" (CqlToSql.Field.at "t.jsonb" "f") .initial {}).result
      = .ok (wordsText (CqlToSql.Field.at "t.jsonb" "f") {} "abc<->") ∧
    ¬ IsFlatQuery "<->".toList "abc<->".toList := by
  refine ⟨Logged.result_eq_ok_iff.2 (by decide +kernel), ?_,
    Logged.result_eq_ok_iff.2 (by decide +kernel), ?_⟩
  · exact Term.not_isFlatQuery_of_nil (by decide +kernel)
  · intro hflat
    have hfirst : Term.readFirstOperand "abc<->".toList = ("abc".toList, false, "<->".toList) := by
      decide +kernel
    cases hflat with
    | last hstart =>
      obtain ⟨-, cs, truncated, -, hread⟩ := hstart
      rw [hfirst] at hread
      cases hread
    | next hstart hrest =>
      obtain ⟨-, cs, truncated, -, hread⟩ := hstart
      rw [hfirst] at hread
      have hend := List.self_eq_append_right.1 (congrArg (·.2.2) hread)
      rw [hend] at hrest
      exact Term.not_isFlatQuery_of_nil rfl hrest

end CqlToSql.Condition
