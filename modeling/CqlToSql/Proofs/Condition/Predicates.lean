/-
  CqlToSql.Proofs.Condition.Predicates
  ────────────────────────────────────
  **Comparisons as they are read.**  Each strategy writes one predicate on the
  operand, or two with `AND` between them:

      true     operand ~ ''     to_tsvector(…) @@ to_tsquery(…)     words
      folded operand LIKE folded pattern  [AND …]                   patterns
      (operand)::numeric < 5     operand < 'text'                   typed

  Main statement: a comparison of an operand is read as a conjunction of
  predicates none of which is a test of members, and no `OR` in it stands outside
  parentheses (`isPlainCondition_comparison`).  It can therefore stand behind the
  `and` of an element search.
-/
import CqlToSql.Proofs.Condition.Complement
import CqlToSql.Proofs.Sql.Elements
import CqlToSql.Proofs.Text.LetterCase

namespace CqlToSql.Sql

open CqlToSql.Text CqlToSql.Condition

variable {ts us front : List Token} {s : String}

/-! ## §1. Single predicates. -/

/-- An operand with more tokens behind it is one predicate. -/
theorem read_predicate
    (hpass : ∀ word ∈ ["or", "and"], Passes (Token.isKeyword word) (front ++ us))
    (hfront : Closed front) (hne : us ≠ []) (hhead : us.head? ≠ some .opening)
    (hlast : ∀ t ∈ us.getLast?, t.isKeyword "true" = false) :
    read (front ++ us) = .atom (front ++ us) := by
  have hbefore : beforeIsNotTrue? (front ++ us) = none := by
    have hlastToken := hlast (us.getLast hne) (List.getLast?_eq_some_getLast hne)
    rw [← List.dropLast_concat_getLast hne, ← List.append_assoc]
    exact beforeIsNotTrue?_last hlastToken _
  exact read_of_atom (hpass "or" (by decide)).uncut (hpass "and" (by decide)).uncut hbefore
    (parenthesized?_append hfront hne hhead)

theorem isPlainCondition_of_predicate
    (hpass : ∀ word ∈ ["or", "and"], Passes (Token.isKeyword word) (front ++ us))
    (hfront : Closed front) (hne : us ≠ []) (hhead : us.head? ≠ some .opening)
    (hlast : ∀ t ∈ us.getLast?, t.isKeyword "true" = false)
    (htest : containment? (front ++ us) = none) : IsPlainCondition (front ++ us) where
  passes := hpass "or" (by decide)
  plain := by
    rw [read_predicate hpass hfront hne hhead hlast]
    exact .atom htest

theorem cutTop_of_forall {key : Token → Bool} (h : ∀ t ∈ ts, key t = false) (depth : Nat) :
    cutTop key depth ts = none := by
  induction ts generalizing depth with
  | nil => rfl
  | cons t ts ih =>
    rw [cutTop, if_neg (by simp [h t List.mem_cons_self]),
      ih (fun u hu => h u (List.mem_cons_of_mem t hu))]
    rfl

/-- An operand with tokens behind it that are no keywords of conditions. -/
theorem isPlainCondition_of_tail
    (hfront : ∀ word ∈ ["or", "and"], Passes (Token.isKeyword word) front) (hclosed : Closed us)
    (hwords : ∀ word ∈ ["or", "and", "true"], ∀ t ∈ us, t.isKeyword word = false)
    (hne : us ≠ []) (hhead : us.head? ≠ some .opening)
    (htest : containment? (front ++ us) = none) : IsPlainCondition (front ++ us) := by
  refine isPlainCondition_of_predicate ?_ (hfront "or" (by decide)).closed hne hhead ?_ htest
  · intro word hword
    have hmem : word ∈ ["or", "and", "true"] := by
      simp only [List.mem_cons, List.not_mem_nil, or_false] at hword ⊢
      exact hword.elim .inl fun h => .inr (.inl h)
    exact (hfront word hword).append ⟨hclosed, cutTop_of_forall (hwords word hmem) 0⟩
  · intro t ht
    exact hwords "true" (by decide) t (List.mem_of_getLast? ht)

/-- Two conditions with `AND` between them. -/
theorem IsPlainCondition.conjunction {first second : List Token} (hfirst : IsPlainCondition first)
    (hand : Passes (Token.isKeyword "and") first) (hsecond : IsPlainCondition second) :
    IsPlainCondition (first ++ .word "AND".toList :: second) where
  passes := by
    have hword : Passes (Token.isKeyword "or") [.word "AND".toList] := ⟨rfl, by decide⟩
    exact hfirst.passes.append (hword.append hsecond.passes)
  plain := by
    have hpass : ∀ word ∈ ["or", "and"], Passes (Token.isKeyword word) first := by
      intro word hword
      simp only [List.mem_cons, List.not_mem_nil, or_false] at hword
      rcases hword with rfl | rfl
      · exact hfirst.passes
      · exact hand
    rw [read_and_of_passes (by decide) (by decide) hpass hsecond.passes]
    exact .and hfirst.plain hsecond.plain

/-! ## §2. Operands. -/

/-- An operand that no test of members starts with. -/
structure IsPlainOperand (s : String) : Prop extends IsOperandText s where
  untested : ∀ us, containment? (tokens s ++ us) = none

/-- A part of an element is an operand, and none of the tests of the element. -/
theorem isPlainOperand_element {part : String} (hpart : '\'' ∉ part.toList) :
    IsPlainOperand (textPath "t.c" part) where
  toIsOperandText := IsOperandText.textPath (by decide) hpart
  untested := by
    intro us
    have hcolumn : EndsOutside "t.c" := by decide
    rw [tokens_textPath hcolumn hpart]
    obtain ⟨first, rest, hparts⟩ := List.exists_cons_of_ne_nil (splitAt_ne_nil '.' part)
    rw [hparts]
    cases rest with
    | nil => rfl
    | cons next rest => rfl

theorem IsPlainOperand.passes (h : IsPlainOperand s) {word : String} (hword : word ∈ ["or", "and"]) :
    Passes (Token.isKeyword word) (tokens s) := by
  refine h.isOperand word ?_
  simp only [List.mem_cons, List.not_mem_nil, or_false] at hword
  rcases hword with rfl | rfl <;> decide

theorem IsPlainOperand.closed (h : IsPlainOperand s) : Closed (tokens s) := closed_tokens h.balanced

/-! ## §3. Numeric constants. -/

/-- A letter starts a word or joins the one behind it. -/
theorem word_of_mem_push {c : Char} {letters : List Char} (h : .word letters ∈ push (.code c) ts) :
    .word letters ∈ ts ∨ ∃ word, (word = [] ∨ .word word ∈ ts) ∧ letters = c :: word := by
  simp only [push] at h
  split at h
  · exact .inl (by simpa using h)
  split at h
  · exact .inl (by simpa using h)
  split at h
  · exact .inl (by simpa using h)
  split at h
  · split at h
    · rename_i word rest
      rcases List.mem_cons.1 h with heq | hrest
      · exact .inr ⟨word, .inr List.mem_cons_self, by simpa using heq⟩
      · exact .inl (List.mem_cons_of_mem _ hrest)
    · rcases List.mem_cons.1 h with heq | hrest
      · exact .inr ⟨[], .inl rfl, by simpa using heq⟩
      · exact .inl hrest
  · exact .inl (by simpa using h)

/-- The letters of a word come from the text. -/
theorem mem_of_word_mem_tokens (hq : '\'' ∉ s.toList) {letters : List Char}
    (h : .word letters ∈ tokens s) {c : Char} (hc : c ∈ letters) : c ∈ s.toList := by
  -- without quotes there is no literal, and every token is made of characters of the text
  have hmarks : marks s = s.toList.map .code := Scan.marks_of_no_quote hq
  have hspaced : ∀ (cs word : List Char), .word word ∈ (cs.map Mark.code).foldr push [] →
      ∀ c ∈ word, c ∈ cs := by
    intro cs
    induction cs with
    | nil => simp
    | cons d cs ih =>
      intro word hword c hc
      rw [List.map_cons, List.foldr_cons] at hword
      rcases word_of_mem_push hword with hword | ⟨rest, hrest, rfl⟩
      · exact List.mem_cons_of_mem d (ih word hword c hc)
      · rcases List.mem_cons.1 hc with rfl | hc
        · exact List.mem_cons_self
        · rcases hrest with rfl | hrest
          · simp at hc
          · exact List.mem_cons_of_mem d (ih rest hrest c hc)
  rw [tokens, spaced, hmarks] at h
  exact hspaced s.toList letters (List.mem_filter.1 h).1 c hc

/-- The letters that the keywords of a condition start with are not those of a
numeric constant. -/
theorem keywordLetter_not_numeric {c : Char} (h : asciiLower c ∈ ['o', 'a', 't']) :
    isDecimalDigit c = false ∧ c ∉ numericMarks := by
  have hlower : (asciiLower c).toNat < 0x80 := by
    simp only [List.mem_cons, List.not_mem_nil, or_false] at h
    rcases h with h | h | h <;>
    · rw [h]
      decide
  refine ascii_cases (P := fun c => asciiLower c ∈ ['o', 'a', 't'] →
    isDecimalDigit c = false ∧ c ∉ numericMarks) ?_ (toNat_asciiLower_lt hlower) h
  decide +kernel

/-- No word of a numeric constant takes a condition apart. -/
theorem not_isKeyword_of_isNumeric (h : isNumeric s = true) {word : String}
    (hword : word ∈ ["or", "and", "true"]) {t : Token} (ht : t ∈ tokens s) :
    t.isKeyword word = false := by
  cases t with
  | word letters =>
    rw [Bool.eq_false_iff]
    intro hkeyword
    have hletters : letters.map asciiLower = word.toList := by
      simpa [Token.isKeyword] using hkeyword
    obtain ⟨c, hc, hfirst⟩ : ∃ c ∈ letters, asciiLower c ∈ ['o', 'a', 't'] := by
      have hstart : ∃ d ∈ ['o', 'a', 't'], d ∈ word.toList := by
        simp only [List.mem_cons, List.not_mem_nil, or_false] at hword
        rcases hword with rfl | rfl | rfl
        · exact ⟨'o', by decide, by decide⟩
        · exact ⟨'a', by decide, by decide⟩
        · exact ⟨'t', by decide, by decide⟩
      obtain ⟨d, hd, hmem⟩ := hstart
      rw [← hletters] at hmem
      obtain ⟨c, hc, rfl⟩ := List.mem_map.1 hmem
      exact ⟨c, hc, hd⟩
    have hother := keywordLetter_not_numeric hfirst
    have hquote : '\'' ∉ s.toList := not_mem_of_isNumeric (by decide) (by decide) h
    exact not_mem_of_isNumeric hother.1 hother.2 h (mem_of_word_mem_tokens hquote ht hc)
  | _ => rfl

end CqlToSql.Sql

namespace CqlToSql.Condition

open CqlToSql.Text CqlToSql.Sql

variable {f : CqlToSql.Field} {m : Matching} {ix : FieldIndexes} {c : Clause}
  {term operator sql s : String}

/-! ## §4. Words. -/

theorem isPlainCondition_true : IsPlainCondition (tokens "true") where
  passes := ⟨rfl, by decide⟩
  plain := by
    rw [read_of_atom (by decide) (by decide) (by decide) (by decide)]
    exact .atom (by decide)

/-- The test that a field has a value. -/
theorem isPlainCondition_defined (hs : IsPlainOperand s) :
    IsPlainCondition (tokens (s ++ " ~ ''")) := by
  have htokens : tokens (s ++ " ~ ''") = tokens s ++ [.symbol '~', .quoted []] :=
    tokens_append hs.balanced.endsOutside (by decide)
  rw [htokens]
  exact isPlainCondition_of_tail (fun word hword => hs.passes hword) rfl
    (by simp [Token.isKeyword]) (by simp) (by simp) (hs.untested _)

/-- A search for words is two applied functions with an operator between them. -/
theorem tokens_wordsText (ix : FieldIndexes) (hf : Balanced true f.text) {body : String}
    (hb : BalancedInside true body) :
    ∃ left right, Closed left ∧ Closed right ∧
      tokens (wordsText f ix body) = callTokens "to_tsvector".toList left
        ++ ([.symbol '@', .symbol '@'] ++ callTokens "to_tsquery".toList right) := by
  have hsimple : Balanced true "'simple', " := by decide
  have hleft : Balanced true ("'simple', " ++ (wordsFolding ix).apply f.text) :=
    hsimple.append (hf.folded _)
  have hright : Balanced true ("'simple', " ++ (wordsFolding ix).apply (literal body)) :=
    hsimple.append ((Balanced.literal hb).folded _)
  have htext : wordsText f ix body
      = "to_tsvector" ++ "(" ++ ("'simple', " ++ (wordsFolding ix).apply f.text) ++ ")"
        ++ (" @@ " ++ ("to_tsquery" ++ "("
          ++ ("'simple', " ++ (wordsFolding ix).apply (literal body)) ++ ")")) := by
    have hopen : "to_tsvector('simple', " = "to_tsvector" ++ "(" ++ "'simple', " := by decide
    have hmiddle : ") @@ to_tsquery('simple', "
        = ")" ++ (" @@ " ++ ("to_tsquery" ++ "(" ++ "'simple', ")) := by decide
    unfold wordsText
    rw [hopen, hmiddle]
    simp only [String.append_assoc, -String.reduceAppend]
  have hcall : Balanced true
      ("to_tsvector" ++ "(" ++ ("'simple', " ++ (wordsFolding ix).apply f.text) ++ ")") :=
    Balanced.between (k := 1) (by decide) hleft (by decide)
  refine ⟨_, _, closed_tokens hleft, closed_tokens hright, ?_⟩
  rw [htext, tokens_append hcall.endsOutside (EndsName.append (by decide) _),
    tokens_call (by decide) hleft, tokens_connector_append (a := " @@ ") (by decide),
    tokens_call (by decide) hright]
  rfl

theorem isPlainCondition_wordsText (hf : Balanced true f.text) {body : String}
    (hb : BalancedInside true body) : IsPlainCondition (tokens (wordsText f ix body)) := by
  obtain ⟨left, right, hleft, hright, htokens⟩ := tokens_wordsText ix hf hb
  rw [htokens]
  refine isPlainCondition_of_predicate ?_ (closed_call hleft) (by simp) (by simp) ?_ rfl
  · -- what stands in the arguments is hidden by their parentheses
    intro word hword
    have hcall : ∀ {name : List Char} {ts : List Sql.Token}, Closed ts →
        name ∈ ["to_tsvector".toList, "to_tsquery".toList] →
        Passes (Token.isKeyword word) (callTokens name ts) := by
      intro name ts hts hname
      refine passes_call hts rfl ?_
      simp only [List.mem_cons, List.not_mem_nil, or_false] at hword hname
      rcases hword with rfl | rfl <;> rcases hname with rfl | rfl <;> decide
    have hoperator : Passes (Token.isKeyword word) [.symbol '@', .symbol '@'] := ⟨rfl, rfl⟩
    exact (hcall hleft (by simp)).append (hoperator.append (hcall hright (by simp)))
  · have hlast : [.symbol '@', .symbol '@'] ++ callTokens "to_tsquery".toList right
        = ([.symbol '@', .symbol '@', .word "to_tsquery".toList, .opening] ++ right)
          ++ [.closing] := by simp [callTokens]
    rw [hlast, List.getLast?_concat]
    simp [Token.isKeyword]

/-! ## §5. Patterns. -/

theorem isPlainCondition_patternMatch (hs : IsPlainOperand s) (negated : Bool) (folding : Folding) :
    IsPlainCondition (tokens (patternMatch negated folding s (literal (Term.like term)))) := by
  rw [tokens_patternMatch hs.balanced (undouble_like term)]
  refine ⟨passes_likeTokens hs.isOperand (by decide), ?_⟩
  rw [read_likeTokens hs.isOperand]
  refine .atom ?_
  obtain ⟨lower, unaccent⟩ := folding
  -- without folding the operand itself comes first, otherwise a function
  cases lower with
  | true => rfl
  | false =>
    cases unaccent with
    | true => rfl
    | false => exact hs.untested _

/-! ## §6. Typed comparisons. -/

/-- The operator of a typed comparison is made of symbols. -/
theorem tokens_typedOperator (h : .typed operator ∈ strategies) :
    IsConnector operator ∧ Balanced true operator ∧ operator ≠ "" ∧
      tokens operator = operator.toList.map .symbol := by
  have hall : ∀ op ∈ typedOperators, IsConnector op ∧ Balanced true op ∧ op ≠ "" ∧
      tokens op = op.toList.map .symbol := by decide
  exact hall operator (mem_typedOperators h)

/-- The value that a field is compared with. -/
structure IsConstant (s : String) : Prop where
  balanced : Balanced true s
  words : ∀ word ∈ ["or", "and", "true"], ∀ t ∈ tokens s, t.isKeyword word = false

theorem isConstant_like (term : String) : IsConstant (literal (Term.like term)) where
  balanced := balanced_literal_of_undouble (undouble_like term)
  words := by
    rw [tokens_literal (undouble_like term)]
    simp [Token.isKeyword]

theorem isConstant_number (h : isNumeric term = true) : IsConstant term where
  balanced := keeps_of_isNumeric h
  words := fun _ hword _ ht => not_isKeyword_of_isNumeric h hword ht

/-- An operand, a cast or nothing, the operator and the constant. -/
theorem isPlainCondition_typed {front : List Sql.Token} (cast : List Sql.Token) {constant : String}
    (hfront : ∀ word ∈ ["or", "and"], Passes (Token.isKeyword word) front)
    (htest : ∀ us, containment? (front ++ us) = none) (hcast : Closed cast)
    (hwords : ∀ word ∈ ["or", "and", "true"], ∀ t ∈ cast, t.isKeyword word = false)
    (hhead : cast.head? ≠ some .opening) (hoperator : .typed operator ∈ strategies)
    (hconstant : IsConstant constant) :
    IsPlainCondition (front ++ (cast ++ tokens (operator ++ constant))) := by
  obtain ⟨hconnector, hbalanced, hne, htokens⟩ := tokens_typedOperator hoperator
  obtain ⟨symbol, symbols, hsymbols⟩ : ∃ symbol symbols, operator.toList = symbol :: symbols :=
    List.exists_cons_of_ne_nil (fun h => hne (String.toList_eq_nil_iff.1 h))
  rw [tokens_connector_append hconnector]
  refine isPlainCondition_of_tail hfront ?_ ?_ (by simp [htokens, hsymbols]) ?_ (htest _)
  · exact hcast.append ((closed_tokens hbalanced).append (closed_tokens hconstant.balanced))
  · intro word hword t ht
    rw [htokens, List.mem_append, List.mem_append, List.mem_map] at ht
    rcases ht with ht | ⟨c, -, rfl⟩ | ht
    · exact hwords word hword t ht
    · rfl
    · exact hconstant.words word hword t ht
  · cases cast with
    | nil => simp [htokens, hsymbols]
    | cons t cast => exact hhead

theorem tokens_typedText (hf : Balanced true f.text) (s : String) :
    tokens (f.text ++ " " ++ s) = tokens f.text ++ tokens s := by
  rw [String.append_assoc, tokens_append hf.endsOutside (EndsName.append (by decide) _),
    tokens_connector_append (a := " ") (by decide)]
  rfl

theorem tokens_typedNumber (hf : Balanced true f.text) (s : String) :
    tokens ("(" ++ f.text ++ ")::numeric " ++ s)
      = .opening :: (tokens f.text ++ [.closing])
        ++ ([.symbol ':', .symbol ':', .word "numeric".toList] ++ tokens s) := by
  rw [String.append_assoc, String.append_assoc, tokens_opening,
    tokens_append_closing hf.endsOutside (by simp),
    tokens_connector_append (a := ")::numeric ") (by decide)]
  simp only [List.append_assoc, List.cons_append, List.nil_append]
  rfl

/-! ## §7. Comparisons. -/

/-- Each strategy writes a plain condition on a plain operand. -/
theorem isPlainCondition_strategy {strategy : Strategy} (hstrategy : strategy ∈ strategies)
    (hf : IsPlainOperand f.text) (h : (strategy.condition term f m ix).result = .ok sql) :
    IsPlainCondition (tokens sql) := by
  cases strategy with
  | words operator =>
    have hoperator : IsBody operator.toList := isBody_operator hstrategy
    rcases words_outcome h with ⟨-, rfl⟩ | ⟨-, rfl⟩ | ⟨-, -, operands, hoperands, rfl⟩
    · exact isPlainCondition_true
    · exact isPlainCondition_defined hf
    · exact isPlainCondition_wordsText hf.balanced
        (hoperator.joinWith (isBody_lexemes hoperands)).balancedInside
  | pattern negated =>
    have hmatch : ∀ folding, IsPlainCondition
        (tokens (patternMatch negated folding f.text (literal (Term.like term)))) :=
      isPlainCondition_patternMatch hf negated
    rw [Strategy.condition, result_pattern, Except.ok.injEq] at h
    subst h
    split
    · exact hmatch _
    · have hbalanced : Balanced true
          (patternMatch negated (Folding.ofIndex ix.forPattern) f.text (literal (Term.like term))) :=
        balanced_patternMatch negated _ hf.balanced (isConstant_like term).balanced
      rw [tokens_conjunction hbalanced.endsOutside]
      refine (hmatch _).conjunction ?_ (hmatch _)
      rw [tokens_patternMatch hf.balanced (undouble_like term)]
      exact passes_likeTokens hf.isOperand (by decide)
  | typed operator =>
    have hconstant : IsConstant (if isNumeric term then term else literal (Term.like term)) := by
      split
      · exact isConstant_number ‹_›
      · exact isConstant_like term
    rw [Strategy.condition, result_typed, Except.ok.injEq] at h
    subst h
    split
    · -- the operand stands in parentheses, so it may start with anything
      rw [String.append_assoc, tokens_typedNumber hf.balanced]
      refine isPlainCondition_typed _ ?_ (fun _ => rfl) rfl (by decide) (by decide) hstrategy hconstant
      intro word hword
      exact ⟨closed_parentheses hf.closed, cutTop_parenthesized_last hf.closed rfl⟩
    · rw [String.append_assoc, tokens_typedText hf.balanced]
      exact isPlainCondition_typed [] (fun word hword => hf.passes hword) hf.untested rfl
        (by simp) (by simp) hstrategy (isConstant_like term)

/-- A comparison of a plain operand can stand behind an `and`. -/
theorem isPlainCondition_comparison (hf : IsPlainOperand f.text)
    (h : (comparison c f ix).result = .ok sql) : IsPlainCondition (tokens sql) := by
  obtain ⟨m, strategy, -, hstrategy, hsql⟩ := comparison_outcome h
  exact isPlainCondition_strategy (strategy?_mem hstrategy) hf hsql

/-! ## §8. Element searches. -/

/-- The condition behind the test for a member tests no other member. -/
theorem isPlainCondition_element {part condition : String} (hpart : '\'' ∉ part.toList)
    (h : (comparison c (CqlToSql.Field.at "t.c" part) ix).result = .ok condition) :
    IsPlainCondition (tokens condition) :=
  isPlainCondition_comparison (isPlainOperand_element hpart) h

/-- A clause on array elements is read as a search for its member. -/
theorem readElements?_element {scope : Scope} (hs : scope.IsBalanced true)
    {index part before column condition : String} (hindex : '\'' ∉ index.toList)
    (hpart : '\'' ∉ part.toList) (hcut : cutLast '.' scope.column = some (before, column))
    (h : (comparison c (CqlToSql.Field.at "t.c" part) ix).result = .ok condition)
    (name value : String) :
    readElements? (tokens (elementSearch (jsonPath column index) scope.table name value condition))
      = some (memberQuery (jsonPath column index) scope.table name value condition) := by
  have harray : Balanced true (jsonPath column index) :=
    (hs.bareColumn (before, column) hcut).jsonPath (IsBody.of_no_quote hindex).balancedInside
  have hoperand : Balanced true (CqlToSql.Field.at "t.c" part).text :=
    (isPlainOperand_element hpart).balanced
  exact readElements?_elementSearch harray hs.table (balanced_comparison hoperand h) name value

end CqlToSql.Condition
