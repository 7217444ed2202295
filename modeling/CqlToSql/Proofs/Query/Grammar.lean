/-
  CqlToSql.Proofs.Query.Grammar
  ─────────────────────────────
  **The reader accepts exactly the query grammar.**  The grammar is given as
  derivations, apart from the reader: a list of tokens is cut into parts, and
  each part is derived from a category with a piece of the tree.

      query       ::=  expression  |  expression sortBy key { key }
      expression  ::=  operand  |  expression (and | or | not) operand
      operand     ::=  "(" expression ")"  |  [ term base { modifier } ] term

  Main statement: `readQuery ts = .ok q` holds just when the tokens `ts` are
  derived with the tree `q`.  As the reader is a function, no list of tokens
  is derived with two trees.

  Soundness says which tokens a reader has taken.  Completeness is stated with
  the tokens that follow, and these must not go on with what was derived: a
  term alone must not be followed by a relation, nor modifiers by a modifier.
-/
import CqlToSql.Proofs.Text.LetterCase
import CqlToSql.Query.Parser

namespace CqlToSql.Grammar

open CqlToSql.Text

/-! ## §1. The grammar. -/

/-- The word is the keyword in some letter case. -/
def Spells (keyword word : String) : Prop := word.toList.map asciiLower = keyword.toList

instance (keyword word : String) : Decidable (Spells keyword word) :=
  inferInstanceAs (Decidable (_ = _))

/-- The words that never are relations. -/
def keywords : List String := ["and", "or", "not", "prox", "sortby"]

/-- A token that is a term. -/
inductive IsTerm : Token → String → Prop where
  | word (w : String) : IsTerm (.word w) w
  | quoted (q : String) : IsTerm (.quoted q) q

/-- A token that is the base of a relation. -/
inductive IsBase : Token → String → Prop where
  | symbol (c : Comparison) : IsBase (.symbol c) c.text
  | word (w : String) (h : ∀ k ∈ keywords, ¬ Spells k w) : IsBase (.word w) w

/-- Tokens that are a list of modifiers. -/
inductive Modifiers : List Token → List Modifier → Prop where
  | nil : Modifiers [] []
  | flag (name : String) {ts : List Token} {ms : List Modifier} (rest : Modifiers ts ms) :
      Modifiers (.slash :: .word name :: ts) ({ name, comparison := none, value := none } :: ms)
  | valued (name : String) (c : Comparison) {t : Token} {value : String} {ts : List Token}
      {ms : List Modifier} (hvalue : IsTerm t value) (rest : Modifiers ts ms) :
      Modifiers (.slash :: .word name :: .symbol c :: t :: ts)
        ({ name, comparison := some c.text, value := some value } :: ms)

mutual

/-- Tokens that are an operand. -/
inductive Operand : List Token → Query → Prop where
  | group {ts : List Token} {q : Query} (inner : Expression ts q) :
      Operand (.openParen :: ts ++ [.closeParen]) q
  /-- A term alone searches the server's choice of indexes. -/
  | bare {t : Token} {term : String} (hterm : IsTerm t term) :
      Operand [t]
        (.clause { index := serverChoice, relation := { base := "=", modifiers := [] }, term })
  | clause {t r u : Token} {index base term : String} {ts : List Token}
      {modifiers : List Modifier} (hindex : IsTerm t index) (hbase : IsBase r base)
      (hmodifiers : Modifiers ts modifiers) (hterm : IsTerm u term) :
      Operand (t :: r :: ts ++ [u]) (.clause { index, relation := { base, modifiers }, term })

/-- Tokens that are operands with operators between them.  Operators bind
equally tightly and to the left. -/
inductive Expression : List Token → Query → Prop where
  | operand {ts : List Token} {q : Query} (h : Operand ts q) : Expression ts q
  | combined {ts us : List Token} {left right : Query} {w : String} {op : Operator}
      (hleft : Expression ts left) (hop : Spells op.render w) (hright : Operand us right) :
      Expression (ts ++ .word w :: us) (.boolean op left right)

end

/-- Tokens that are one or more sort keys. -/
inductive Keys : List Token → List SortKey → Prop where
  | last {t : Token} {index : String} {ts : List Token} {modifiers : List Modifier}
      (hindex : IsTerm t index) (hmodifiers : Modifiers ts modifiers) :
      Keys (t :: ts) [{ index, modifiers }]
  | cons {t : Token} {index : String} {ts us : List Token} {modifiers : List Modifier}
      {keys : List SortKey} (hindex : IsTerm t index) (hmodifiers : Modifiers ts modifiers)
      (rest : Keys us keys) : Keys (t :: ts ++ us) ({ index, modifiers } :: keys)

/-- Tokens that are a query. -/
inductive Derives : List Token → Query → Prop where
  | unsorted {ts : List Token} {q : Query} (h : Expression ts q) : Derives ts q
  | sorted {ts us : List Token} {q : Query} {w : String} {keys : List SortKey}
      (h : Expression ts q) (hsort : Spells "sortby" w) (hkeys : Keys us keys) :
      Derives (ts ++ .word w :: us) (.sorted q keys)

/-! ## §2. Words with a role. -/

theorem lowerCase_eq_iff_spells {keyword : String} (hk : keyword ∈ keywords) (word : String) :
    lowerCase word = keyword ↔ Spells keyword word := by
  have hplain : ∀ k ∈ keywords, k.toList.all (fun c => decide (IsPlainLower c)) = true := by decide
  exact lowerCase_eq_iff (by simpa using hplain keyword hk) word

theorem render_mem_keywords (op : Operator) : op.render ∈ keywords := by
  cases op <;> decide

theorem connective?_eq_operator_iff {w : String} {op : Operator} :
    connective? w = some (.operator op) ↔ Spells op.render w := by
  rw [← lowerCase_eq_iff_spells (render_mem_keywords op)]
  unfold connective?
  generalize lowerCase w = v
  cases op <;> grind [Operator.render]

theorem connective?_eq_none_of_sortBy {w : String} (h : Spells "sortby" w) :
    connective? w = none := by
  have hw : lowerCase w = "sortby" := (lowerCase_eq_iff_spells (by decide) w).2 h
  simp [connective?, hw]

theorem isKeyword_iff {w : String} : isKeyword w = true ↔ ∃ k ∈ keywords, Spells k w := by
  have hmem : isKeyword w = true ↔ lowerCase w ∈ keywords := by
    unfold isKeyword connective? keywords
    generalize lowerCase w = v
    grind
  rw [hmem]
  constructor
  · intro h
    exact ⟨lowerCase w, h, (lowerCase_eq_iff_spells h w).1 rfl⟩
  · rintro ⟨k, hk, hs⟩
    rw [(lowerCase_eq_iff_spells hk w).2 hs]
    exact hk

theorem relationBase?_eq_some_iff {t : Token} {base : String} :
    relationBase? t = some base ↔ IsBase t base := by
  constructor
  · intro h
    cases t <;> simp only [relationBase?] at h
    case symbol c =>
      injection h with h
      exact h ▸ .symbol c
    case word w =>
      split at h
      · simp at h
      · rename_i hk
        injection h with h
        subst h
        refine .word w fun k hmem hs => hk ?_
        exact isKeyword_iff.2 ⟨k, hmem, hs⟩
    all_goals simp at h
  · intro h
    cases h with
    | symbol c => rfl
    | word w hw =>
      have hk : ¬ isKeyword base = true := by
        rw [isKeyword_iff]
        rintro ⟨k, hmem, hs⟩
        exact hw k hmem hs
      simp [relationBase?, hk]

theorem termText?_eq_some_iff {t : Token} {s : String} : termText? t = some s ↔ IsTerm t s := by
  constructor
  · intro h
    cases t <;> simp only [termText?, Option.some.injEq, reduceCtorEq] at h
    · exact h ▸ .word _
    · exact h ▸ .quoted _
  · rintro (_ | _) <;> rfl

/-! ## §3. Terms and modifiers. -/

theorem readTerm_eq_ok_iff {ts rest : List Token} {s : String} :
    readTerm ts = .ok (s, rest) ↔ ∃ t, IsTerm t s ∧ ts = t :: rest := by
  constructor
  · intro h
    unfold readTerm at h
    split at h
    · simp only [Except.ok.injEq, Prod.mk.injEq] at h
      obtain ⟨rfl, rfl⟩ := h
      exact ⟨_, .word _, rfl⟩
    · simp only [Except.ok.injEq, Prod.mk.injEq] at h
      obtain ⟨rfl, rfl⟩ := h
      exact ⟨_, .quoted _, rfl⟩
    · simp at h
  · rintro ⟨t, ht, rfl⟩
    cases ht <;> rfl

/-- The modifiers that are read are derived from the tokens taken. -/
theorem readModifiers_sound {ts rest : List Token} {ms : List Modifier}
    (h : readModifiers ts = .ok (ms, rest)) : ∃ used, ts = used ++ rest ∧ Modifiers used ms := by
  -- four cases succeed: a word or a quoted text as value, no value, and the end
  fun_induction readModifiers ts generalizing ms rest with
  | case1 name c value tail ms' tail' hread ih =>
    simp only [Except.ok.injEq, Prod.mk.injEq] at h
    obtain ⟨rfl, rfl⟩ := h
    obtain ⟨used, rfl, hused⟩ := ih hread
    exact ⟨_, rfl, .valued name c (.word value) hused⟩
  | case3 name c value tail ms' tail' hread ih =>
    simp only [Except.ok.injEq, Prod.mk.injEq] at h
    obtain ⟨rfl, rfl⟩ := h
    obtain ⟨used, rfl, hused⟩ := ih hread
    exact ⟨_, rfl, .valued name c (.quoted value) hused⟩
  | case6 name tail _ _ _ ms' tail' hread ih =>
    simp only [Except.ok.injEq, Prod.mk.injEq] at h
    obtain ⟨rfl, rfl⟩ := h
    obtain ⟨used, rfl, hused⟩ := ih hread
    exact ⟨_, rfl, .flag name hused⟩
  | case9 tail =>
    simp only [Except.ok.injEq, Prod.mk.injEq] at h
    obtain ⟨rfl, rfl⟩ := h
    exact ⟨[], rfl, .nil⟩
  | _ => simp_all

/-- No modifier, and no value of one, starts with these tokens. -/
def EndsModifiers (rest : List Token) : Prop :=
  rest.head? ≠ some .slash ∧ ∀ c, rest.head? ≠ some (.symbol c)

/-- A modifier name that no comparison follows is a modifier without a value. -/
theorem readModifiers_flag (name : String) {tail rest : List Token} {ms : List Modifier}
    (hsymbol : ∀ c, tail.head? ≠ some (.symbol c)) (h : readModifiers tail = .ok (ms, rest)) :
    readModifiers (.slash :: .word name :: tail)
      = .ok ({ name, comparison := none, value := none } :: ms, rest) := by
  -- each of the three rules for a value needs a symbol behind the name
  have hcons : ∀ c us, tail ≠ .symbol c :: us := by
    rintro c us rfl
    exact hsymbol c rfl
  rw [readModifiers]
  · rw [h]
  · exact fun c _ _ he => hcons c _ he
  · exact fun c _ _ he => hcons c _ he
  · exact fun c _ he => hcons c _ he

/-- Derived modifiers start with a slash, so no comparison symbol stands in
front. -/
theorem Modifiers.head?_ne_symbol {ts rest : List Token} {ms : List Modifier}
    (h : Modifiers ts ms) (hrest : EndsModifiers rest) (c : Comparison) :
    (ts ++ rest).head? ≠ some (.symbol c) := by
  cases h with
  | nil => exact hrest.2 c
  | flag name _ => simp
  | valued name d _ _ => simp

/-- Derived modifiers are read up to tokens that do not go on with them. -/
theorem readModifiers_complete {ts rest : List Token} {ms : List Modifier}
    (h : Modifiers ts ms) (hrest : EndsModifiers rest) :
    readModifiers (ts ++ rest) = .ok (ms, rest) := by
  induction h with
  | nil =>
    obtain ⟨hslash, -⟩ := hrest
    cases rest with
    | nil => rfl
    | cons t rest => cases t <;> simp_all [readModifiers]
  | flag name inner ih =>
    rw [List.cons_append, List.cons_append, readModifiers_flag name (inner.head?_ne_symbol hrest) ih]
  | valued name c hvalue inner ih =>
    cases hvalue with
    | word w => simp only [List.cons_append, readModifiers, ih]
    | quoted q => simp only [List.cons_append, readModifiers, ih]

/-- A term ends the modifiers before it. -/
theorem IsTerm.endsModifiers {t : Token} {s : String} (h : IsTerm t s) (rest : List Token) :
    EndsModifiers (t :: rest) := by
  cases h <;> simp [EndsModifiers]

/-! ## §4. Soundness of the readers of expressions. -/

theorem readClause_sound {ts rest : List Token} {c : Clause} (h : readClause ts = .ok (c, rest)) :
    ∃ used, ts = used ++ rest ∧ Operand used (.clause c) := by
  unfold readClause at h
  split at h
  · simp at h
  · rename_i first afterFirst hfirst
    obtain ⟨t, ht, rfl⟩ := readTerm_eq_ok_iff.1 hfirst
    split at h
    · simp only [Except.ok.injEq, Prod.mk.injEq] at h
      obtain ⟨rfl, rfl⟩ := h
      -- no relation follows, so the term stands alone
      exact ⟨[t], rfl, .bare ht⟩
    · rename_i base hbase
      obtain ⟨r, hr, hrbase⟩ := Option.bind_eq_some_iff.1 hbase
      obtain ⟨afterBase, rfl⟩ := List.head?_eq_some_iff.1 hr
      split at h
      · simp at h
      · rename_i modifiers afterModifiers hmodifiers
        obtain ⟨used, hused, hderived⟩ := readModifiers_sound hmodifiers
        rw [List.tail_cons] at hused
        split at h
        · simp at h
        · rename_i term afterTerm hterm
          obtain ⟨u, hu, rfl⟩ := readTerm_eq_ok_iff.1 hterm
          simp only [Except.ok.injEq, Prod.mk.injEq] at h
          obtain ⟨rfl, rfl⟩ := h
          refine ⟨t :: r :: used ++ [u], by simp [hused], ?_⟩
          exact .clause ht (relationBase?_eq_some_iff.1 hrbase) hderived hu

mutual

/-- The tokens that an operand takes are derived with its tree. -/
theorem readOperand_sound {ts : List Token} {q : Query} {rest : Shorter ts}
    (h : readOperand ts = .ok (q, rest)) : ∃ used, ts = used ++ rest.1 ∧ Operand used q := by
  unfold readOperand at h
  split at h
  · rename_i inner
    split at h
    · simp at h
    · rename_i query after hafter hread
      obtain ⟨used, hused, hderived⟩ := readExpression_sound hread
      split at h
      · simp only [Except.ok.injEq, Prod.mk.injEq] at h
        obtain ⟨rfl, rfl⟩ := h
        refine ⟨.openParen :: used ++ [.closeParen], ?_, .group hderived⟩
        simpa using hused
      · simp at h
  · split at h
    · simp at h
    · rename_i c after hclause
      simp only [Except.ok.injEq, Prod.mk.injEq] at h
      obtain ⟨rfl, rfl⟩ := h
      exact readClause_sound hclause
termination_by (ts.length, 0)

/-- The tokens that an expression takes are derived with its tree. -/
theorem readExpression_sound {ts : List Token} {q : Query} {rest : Shorter ts}
    (h : readExpression ts = .ok (q, rest)) : ∃ used, ts = used ++ rest.1 ∧ Expression used q := by
  unfold readExpression at h
  split at h
  · simp at h
  · rename_i first after hafter hfirst
    obtain ⟨used, hused, hderived⟩ := readOperand_sound hfirst
    split at h
    · simp at h
    · rename_i query after' hafter' hchain
      simp only [Except.ok.injEq, Prod.mk.injEq] at h
      obtain ⟨rfl, rfl⟩ := h
      obtain ⟨more, hmore, hwhole⟩ := readChain_sound (.operand hderived) hchain
      exact ⟨used ++ more, by simp_all, hwhole⟩
termination_by (ts.length, 1)

/-- Operators and operands after a derived expression make a longer one. -/
theorem readChain_sound {done ts : List Token} {left q : Query}
    {rest : { rest : List Token // rest.length ≤ ts.length }} (hleft : Expression done left)
    (h : readChain left ts = .ok (q, rest)) :
    ∃ used, ts = used ++ rest.1 ∧ Expression (done ++ used) q := by
  unfold readChain at h
  split at h
  · rename_i w after
    split at h
    · simp only [Except.ok.injEq, Prod.mk.injEq] at h
      obtain ⟨rfl, rfl⟩ := h
      exact ⟨[], rfl, by simpa using hleft⟩
    · simp at h
    · rename_i op hop
      split at h
      · simp at h
      · split at h
        · simp at h
        · rename_i right after' hafter' hright
          split at h
          · simp at h
          · rename_i query after'' hafter'' hchain
            simp only [Except.ok.injEq, Prod.mk.injEq] at h
            obtain ⟨rfl, rfl⟩ := h
            obtain ⟨used, hused, hderived⟩ := readOperand_sound hright
            -- what is read so far is derived, and becomes the left operand of the rest
            have hlonger := Expression.combined hleft (connective?_eq_operator_iff.1 hop) hderived
            obtain ⟨more, hmore, hwhole⟩ := readChain_sound hlonger hchain
            refine ⟨.word w :: used ++ more, by simp_all, ?_⟩
            simpa using hwhole
  · simp only [Except.ok.injEq, Prod.mk.injEq] at h
    obtain ⟨rfl, rfl⟩ := h
    exact ⟨[], rfl, by simpa using hleft⟩
termination_by (ts.length, 0)
decreasing_by
  all_goals
    subst_vars
    apply Prod.Lex.left
    simp only [List.length_cons]
    omega

end

/-! ## §5. Completeness of the readers of expressions. -/

/-- No relation starts with these tokens. -/
def StartsNoRelation (rest : List Token) : Prop := rest.head?.bind relationBase? = none

theorem startsNoRelation_keyword {w : String} (hw : isKeyword w = true) (rest : List Token) :
    StartsNoRelation (.word w :: rest) := by
  simp [StartsNoRelation, relationBase?, hw]

theorem isKeyword_of_spells {k w : String} (hk : k ∈ keywords) (h : Spells k w) :
    isKeyword w = true :=
  isKeyword_iff.2 ⟨k, hk, h⟩

/-- A term that no relation follows is read as a clause of its own. -/
theorem readClause_bare {t : Token} {term : String} {rest : List Token} (ht : IsTerm t term)
    (hrest : StartsNoRelation rest) : readClause (t :: rest) = .ok (.bare term, rest) := by
  have hterm : readTerm (t :: rest) = .ok (term, rest) := readTerm_eq_ok_iff.2 ⟨t, ht, rfl⟩
  have hrest' : rest.head?.bind relationBase? = none := hrest
  simp only [readClause, hterm, hrest']

/-- A derived clause with a relation is read as such. -/
theorem readClause_relation {t r u : Token} {index base term : String} {ts rest : List Token}
    {modifiers : List Modifier} (hindex : IsTerm t index) (hbase : IsBase r base)
    (hmodifiers : Modifiers ts modifiers) (hterm : IsTerm u term) :
    readClause (t :: r :: ts ++ u :: rest)
      = .ok ({ index, relation := { base, modifiers }, term }, rest) := by
  have hi : readTerm (t :: r :: ts ++ u :: rest) = .ok (index, r :: ts ++ u :: rest) :=
    readTerm_eq_ok_iff.2 ⟨t, hindex, rfl⟩
  have hb : (r :: ts ++ u :: rest).head?.bind relationBase? = some base :=
    relationBase?_eq_some_iff.2 hbase
  have hm : readModifiers (r :: ts ++ u :: rest).tail = .ok (modifiers, u :: rest) :=
    readModifiers_complete hmodifiers (hterm.endsModifiers rest)
  have ht : readTerm (u :: rest) = .ok (term, rest) := readTerm_eq_ok_iff.2 ⟨u, hterm, rfl⟩
  simp only [readClause, hi, hb, hm, ht]

/-- The reader gives this tree and leaves these tokens. -/
def Gives {p : List Token → Prop} (result : Except Stop (Query × { rest : List Token // p rest }))
    (q : Query) (rest : List Token) : Prop := ∃ h : p rest, result = .ok (q, ⟨rest, h⟩)

/-- A clause is an operand, as a term is no parenthesis. -/
theorem readOperand_clause {t : Token} {s : String} {ts rest : List Token} {c : Clause}
    (ht : IsTerm t s) (hc : readClause (t :: ts) = .ok (c, rest)) :
    Gives (readOperand (t :: ts)) (.clause c) rest := by
  -- so the second rule applies, which reads a clause
  have hparen : ∀ inner, t :: ts ≠ .openParen :: inner := by
    cases ht <;> simp
  refine ⟨readClause_length hc, ?_⟩
  rw [readOperand]
  · split
    · rename_i stop he
      rw [hc] at he
      simp at he
    · rename_i c' rest' he
      rw [hc] at he
      simp only [Except.ok.injEq, Prod.mk.injEq] at he
      obtain ⟨rfl, rfl⟩ := he
      rfl
  · exact fun inner => hparen inner

/-- An expression in parentheses is an operand. -/
theorem readOperand_group {ts rest : List Token} {q : Query}
    (h : Gives (readExpression ts) q (.closeParen :: rest)) :
    Gives (readOperand (.openParen :: ts)) q rest := by
  obtain ⟨hlt, h⟩ := h
  refine ⟨by simp only [List.length_cons] at hlt ⊢; omega, ?_⟩
  rw [readOperand, h]

/-- An expression is an operand with the chain that follows it. -/
theorem readExpression_chain {ts rest rest' : List Token} {q q' : Query}
    (h : Gives (readOperand ts) q rest) (hchain : Gives (readChain q rest) q' rest') :
    Gives (readExpression ts) q' rest' := by
  obtain ⟨hlt, h⟩ := h
  obtain ⟨hle, hchain⟩ := hchain
  refine ⟨by omega, ?_⟩
  rw [readExpression, h]
  simp only [hchain]

/-- An operator and an operand go on with a chain. -/
theorem readChain_operator {w : String} {op : Operator} {ts rest rest' : List Token}
    {left right q : Query} (hop : connective? w = some (.operator op))
    (hslash : ts.head? ≠ some .slash) (hright : Gives (readOperand ts) right rest)
    (hchain : Gives (readChain (.boolean op left right) rest) q rest') :
    Gives (readChain left (.word w :: ts)) q rest' := by
  obtain ⟨hlt, hright⟩ := hright
  obtain ⟨hle, hchain⟩ := hchain
  refine ⟨by simp only [List.length_cons]; omega, ?_⟩
  rw [readChain, hop]
  dsimp only
  split
  · exact absurd rfl hslash
  · simp only [hright, hchain]

/-- A chain ends at tokens that no connective starts. -/
theorem readChain_end (q : Query) {rest : List Token}
    (h : ∀ w, rest.head? = some (.word w) → connective? w = none) :
    Gives (readChain q rest) q rest := by
  refine ⟨Nat.le_refl _, ?_⟩
  unfold readChain
  split
  · rename_i w after
    rw [h w rfl]
  · rfl

/-- An operand does not start with a slash. -/
theorem Operand.head?_ne_slash {ts : List Token} {q : Query} (h : Operand ts q)
    (rest : List Token) : (ts ++ rest).head? ≠ some .slash := by
  cases h with
  | group inner => simp
  | bare ht => cases ht <;> simp
  | clause ht _ _ _ => cases ht <;> simp

mutual

/-- A derived operand is read up to tokens that start no relation. -/
theorem readOperand_complete {ts : List Token} {q : Query} (h : Operand ts q) {rest : List Token}
    (hrest : StartsNoRelation rest) : Gives (readOperand (ts ++ rest)) q rest := by
  match h with
  | .group hinner =>
    -- a parenthesis is no connective, so the chain inside ends before it
    have hend : Gives (readChain q (.closeParen :: rest)) q (.closeParen :: rest) :=
      readChain_end q (by simp)
    have hread := readExpression_complete hinner (by rfl) hend
    rw [List.cons_append, List.cons_append, List.append_assoc]
    exact readOperand_group hread
  | .bare ht => exact readOperand_clause ht (readClause_bare ht hrest)
  | .clause hindex hbase hmodifiers hterm =>
    rw [List.append_assoc]
    exact readOperand_clause hindex (readClause_relation hindex hbase hmodifiers hterm)

/-- A derived expression is read, and its tree is handed to the chain that
follows. -/
theorem readExpression_complete {ts : List Token} {q : Query} (h : Expression ts q)
    {rest rest' : List Token} (hrest : StartsNoRelation rest) {q' : Query}
    (hchain : Gives (readChain q rest) q' rest') : Gives (readExpression (ts ++ rest)) q' rest' := by
  match h with
  | .operand hoperand => exact readExpression_chain (readOperand_complete hoperand hrest) hchain
  | .combined hleft hop hright =>
    -- the tree leans to the left and is read from the left: the last operator
    -- goes into the chain that is handed to the left operand
    have hread := readOperand_complete hright hrest
    have hlonger := readChain_operator (connective?_eq_operator_iff.2 hop)
      (hright.head?_ne_slash rest) hread hchain
    have hkeyword := isKeyword_of_spells (render_mem_keywords _) hop
    rw [List.append_assoc]
    exact readExpression_complete hleft (startsNoRelation_keyword hkeyword _) hlonger

end

/-! ## §6. Sort keys. -/

theorem readKeys_nil {ts rest : List Token} (h : readKeys ts = .ok ([], rest)) : rest = ts := by
  unfold readKeys at h
  split at h
  · simp_all
  · split at h
    · simp_all
    · split at h
      · simp at h
      · split at h <;> simp at h

/-- The sort keys that are read are derived from the tokens taken. -/
theorem readKeys_sound {ts rest : List Token} {keys : List SortKey}
    (h : readKeys ts = .ok (keys, rest)) (hkeys : keys ≠ []) :
    ∃ used, ts = used ++ rest ∧ Keys used keys := by
  fun_induction readKeys ts generalizing keys rest with
  | case5 t tail index htext modifiers after hmodifiers keys' after' hread ih =>
    simp only [Except.ok.injEq, Prod.mk.injEq] at h
    obtain ⟨rfl, rfl⟩ := h
    have hindex := termText?_eq_some_iff.1 htext
    obtain ⟨used, rfl, hderived⟩ := readModifiers_sound hmodifiers
    cases keys' with
    | nil =>
      -- no more keys: nothing is taken after this one
      rw [readKeys_nil hread]
      exact ⟨t :: used, rfl, .last hindex hderived⟩
    | cons key keys' =>
      obtain ⟨used', rfl, hrest⟩ := ih hread (by simp)
      exact ⟨t :: used ++ used', by simp, .cons hindex hderived hrest⟩
  | _ => simp_all

theorem Keys.endsModifiers {ts : List Token} {keys : List SortKey} (h : Keys ts keys) :
    EndsModifiers ts := by
  cases h with
  | last hindex _ => exact hindex.endsModifiers _
  | cons hindex _ _ => exact hindex.endsModifiers _

/-- A term and its modifiers are read as the first sort key. -/
theorem readKeys_cons {t : Token} {index : String} {ts us rest : List Token}
    {modifiers : List Modifier} {keys : List SortKey} (hindex : IsTerm t index)
    (hmodifiers : Modifiers ts modifiers) (hus : EndsModifiers us)
    (h : readKeys us = .ok (keys, rest)) :
    readKeys (t :: ts ++ us) = .ok ({ index, modifiers } :: keys, rest) := by
  have hm := readModifiers_complete hmodifiers hus
  show readKeys (t :: (ts ++ us)) = _
  rw [readKeys, termText?_eq_some_iff.2 hindex]
  dsimp only
  split
  · simp_all
  · simp_all

/-- Derived sort keys are read to the end. -/
theorem readKeys_complete {ts : List Token} {keys : List SortKey} (h : Keys ts keys) :
    readKeys ts = .ok (keys, []) := by
  induction h with
  | last hindex hmodifiers =>
    have hend : readKeys [] = .ok ([], []) := by rw [readKeys]
    have hnil : EndsModifiers [] := by simp [EndsModifiers]
    simpa using readKeys_cons hindex hmodifiers hnil hend
  | cons hindex hmodifiers rest ih => exact readKeys_cons hindex hmodifiers rest.endsModifiers ih

/-! ## §7. Queries. -/

theorem atEnd_eq_ok_iff {q q' : Query} {ts : List Token} :
    atEnd q ts = .ok q' ↔ ts = [] ∧ q = q' := by
  cases ts <;> simp [atEnd]

theorem sameAsciiFold_sortBy_iff {w : String} :
    sameAsciiFold w "sortby" = true ↔ Spells "sortby" w := by
  have hlower : "sortby".toList.map asciiLower = "sortby".toList := by decide
  simp only [sameAsciiFold, Spells, hlower, beq_iff_eq]

/-- What follows the expression of a query: nothing, or sort keys. -/
theorem readSorting_eq_ok_iff {q q' : Query} {ts : List Token} :
    readSorting q ts = .ok q' ↔
      (ts = [] ∧ q' = q) ∨
      ∃ w us keys, ts = .word w :: us ∧ Spells "sortby" w ∧ Keys us keys ∧ q' = .sorted q keys := by
  constructor
  · intro h
    unfold readSorting at h
    split at h
    · rename_i w us
      split at h
      · rename_i hw
        split at h
        · simp at h
        · simp at h
        · rename_i keys rest hkeys hread
          obtain ⟨rfl, rfl⟩ := atEnd_eq_ok_iff.1 h
          obtain ⟨used, hused, hderived⟩ := readKeys_sound hread (by simpa using hkeys)
          rw [List.append_nil] at hused
          subst hused
          exact .inr ⟨w, us, keys, rfl, sameAsciiFold_sortBy_iff.1 hw, hderived, rfl⟩
      · simp [atEnd_eq_ok_iff] at h
    · obtain ⟨rfl, rfl⟩ := atEnd_eq_ok_iff.1 h
      exact .inl ⟨rfl, rfl⟩
  · rintro (⟨rfl, rfl⟩ | ⟨w, us, keys, rfl, hw, hkeys, rfl⟩)
    · rfl
    · rw [readSorting, if_pos (sameAsciiFold_sortBy_iff.2 hw), readKeys_complete hkeys]
      cases hkeys <;> rfl

/-- A query that is read is derived. -/
theorem derives_of_readQuery {ts : List Token} {q : Query} (h : readQuery ts = .ok q) :
    Derives ts q := by
  unfold readQuery at h
  split at h
  · simp at h
  · split at h
    · simp at h
    · rename_i left rest hread
      obtain ⟨used, hused, hderived⟩ := readExpression_sound hread
      rcases readSorting_eq_ok_iff.1 h with ⟨hrest, rfl⟩ | ⟨w, us, keys, hrest, hw, hkeys, rfl⟩
      · rw [hused, hrest, List.append_nil]
        exact .unsorted hderived
      · rw [hused, hrest]
        exact .sorted hderived hw hkeys

/-- An expression has at least one token. -/
theorem readQuery_of_gives {ts rest : List Token} {left q : Query}
    (h : Gives (readExpression ts) left rest) (hsort : readSorting left rest = .ok q) :
    readQuery ts = .ok q := by
  obtain ⟨hlt, h⟩ := h
  unfold readQuery
  split
  · simp at hlt
  · rw [h]
    exact hsort

/-- A derived query is read. -/
theorem readQuery_of_derives {ts : List Token} {q : Query} (h : Derives ts q) :
    readQuery ts = .ok q := by
  cases h with
  | unsorted hderived =>
    have hend : Gives (readChain q []) q [] := readChain_end q (by simp)
    have hstart : StartsNoRelation [] := rfl
    have hread := readExpression_complete hderived hstart hend
    rw [List.append_nil] at hread
    exact readQuery_of_gives hread rfl
  | sorted hderived hw hkeys =>
    rename_i us q w keys
    -- the word `sortBy` is no relation and no operator, so the expression ends before it
    have hstart := startsNoRelation_keyword (isKeyword_of_spells (by decide) hw) us
    have hend : Gives (readChain q (.word w :: us)) q (.word w :: us) :=
      readChain_end q (by simpa using connective?_eq_none_of_sortBy hw)
    have hread := readExpression_complete hderived hstart hend
    refine readQuery_of_gives hread (readSorting_eq_ok_iff.2 (.inr ?_))
    exact ⟨w, us, keys, rfl, hw, hkeys, rfl⟩

/-- **The reader accepts exactly the grammar**, and the grammar derives at most
one tree from a list of tokens. -/
theorem readQuery_eq_ok_iff_derives (ts : List Token) :
    (∀ q, readQuery ts = .ok q ↔ Derives ts q)
      ∧ ∀ q q', Derives ts q → Derives ts q' → q = q' := by
  refine ⟨fun q => ⟨derives_of_readQuery, readQuery_of_derives⟩, fun q q' h h' => ?_⟩
  -- both trees are what the reader gives
  have hq := (readQuery_of_derives h).symm.trans (readQuery_of_derives h')
  injection hq

/-- Keywords are terms, sort keys and values wherever they stand, as in
`a OR or sortBy and/x="y"`. -/
theorem readQuery_keywords_as_terms :
    let ts := [.word "a", .word "OR", .word "or", .word "sortBy", .word "and", .slash, .word "x",
      .symbol .equal, .quoted "y"]
    let q := .sorted (.boolean .or (.clause (.bare "a")) (.clause (.bare "or")))
      [{ index := "and", modifiers := [⟨"x", some "=", some "y"⟩] }]
    readQuery ts = .ok q ∧ ∀ q', Derives ts q' → q = q' := by
  intro ts q
  have hleft : Expression [.word "a"] (.clause (.bare "a")) := .operand (.bare (.word "a"))
  have hright : Operand [.word "or"] (.clause (.bare "or")) := .bare (.word "or")
  have hor : Spells Operator.or.render "OR" := by decide
  have hboth := Expression.combined hleft hor hright
  have hderived : Derives ts q := .sorted (w := "sortBy") hboth (by decide)
    (.last (.word "and") (.valued "x" .equal (.quoted "y") .nil))
  have hexact := readQuery_eq_ok_iff_derives ts
  exact ⟨(hexact.1 q).2 hderived, fun q' h' => hexact.2 q q' hderived h'⟩

end CqlToSql.Grammar
