/-
  CqlToSql.Proofs.Query.FirstImpossible
  ─────────────────────────────────────
  **Reading stops at the first impossible token.**  When tokens are no query,
  the reader stops in front of one of them, or of the end of the query.  What
  stands before it can be completed to a query, and nothing that goes on with
  it can:

      t₀ … tᵢ₋₁ | tᵢ …        tᵢ₋₁ is still possible, tᵢ is not

  Two facts give this.  Where a reader stops, what it has taken is the start
  of something that the grammar derives (§3, §4).  And a reader looks one
  token ahead, so it comes to the same end whatever stands behind the token
  it stopped at (§1, §2).
-/
import CqlToSql.Proofs.Query.Tokens

namespace CqlToSql.Grammar

open CqlToSql.Text

variable {α β ρ : Type}

/-! ## §1. One token ahead. -/

/-- What a reader comes to: a value or a reason to stop, and the tokens that
it leaves. -/
abbrev Outcome (α : Type) : Type := Except ParseReason α × List Token

/-- The outcome of a reader, where `left` gives the tokens it leaves. -/
def outcome (left : ρ → List Token) : Except Stop (α × ρ) → Outcome α
  | .ok (value, rest) => (.ok value, left rest)
  | .error stop => (.error stop.reason, stop.rest)

theorem outcome_eq_ok_iff {left : ρ → List Token} {result : Except Stop (α × ρ)} {value : α}
    {rest : List Token} :
    outcome left result = (.ok value, rest) ↔ ∃ r, result = .ok (value, r) ∧ left r = rest := by
  constructor
  · intro h
    rcases result with stop | ⟨found, r⟩
    · cases h
    · cases h
      exact ⟨r, rfl, rfl⟩
  · rintro ⟨r, rfl, rfl⟩
    rfl

/-- One reader after another. -/
def Outcome.andThen (first : Outcome α) (second : α → List Token → Outcome β) : Outcome β :=
  match first with
  | (.ok value, rest) => second value rest
  | (.error reason, rest) => (.error reason, rest)

/-- On these tokens the outcome is settled by the tokens that the reader takes
and the one behind them. -/
def Settled (read : List Token → Outcome α) (ts : List Token) : Prop :=
  ∃ used rest result, ts = used ++ rest
    ∧ ∀ rest', rest'.head? = rest.head? → read (used ++ rest') = (result, rest')

/-- The reader takes nothing. -/
theorem settled_here {read : List Token → Outcome α} {ts : List Token}
    (result : Except ParseReason α)
    (h : ∀ ts', ts'.head? = ts.head? → read ts' = (result, ts')) : Settled read ts :=
  ⟨[], ts, result, rfl, h⟩

/-- Tokens of the same parts start with the same token. -/
theorem head?_append_congr {used rest rest' : List Token} (h : rest'.head? = rest.head?) :
    (used ++ rest').head? = (used ++ rest).head? := by
  rw [List.head?_append, List.head?_append, h]

/-- The reader takes some tokens and goes on as another one, which it chooses
by the next token. -/
theorem Settled.behind (taken : List Token) {read read' : List Token → Outcome α}
    {ts : List Token} (h : Settled read' ts)
    (heq : ∀ ts', ts'.head? = ts.head? → read (taken ++ ts') = read' ts') :
    Settled read (taken ++ ts) := by
  obtain ⟨used, rest, result, rfl, hread⟩ := h
  refine ⟨taken ++ used, rest, result, by rw [List.append_assoc], ?_⟩
  intro rest' hhead
  rw [List.append_assoc, heq _ (head?_append_congr hhead), hread rest' hhead]

/-- The reader goes on with another one. -/
theorem Settled.andThen {first : List Token → Outcome α} {second : α → List Token → Outcome β}
    {ts : List Token} (h : Settled first ts)
    (hnext : ∀ value rest, first ts = (.ok value, rest) → Settled (second value) rest) :
    Settled (fun ts => (first ts).andThen second) ts := by
  obtain ⟨used, rest, result, rfl, hread⟩ := h
  cases result with
  | error reason =>
    refine ⟨used, rest, .error reason, rfl, ?_⟩
    intro rest' hhead
    show (first (used ++ rest')).andThen second = _
    rw [hread rest' hhead]
    rfl
  | ok value =>
    obtain ⟨more, last, result, rfl, hsecond⟩ := hnext value rest (hread rest rfl)
    refine ⟨used ++ more, last, result, by rw [List.append_assoc], ?_⟩
    intro rest' hhead
    show (first (used ++ more ++ rest')).andThen second = _
    -- the first reader sees the same token behind what it takes
    rw [List.append_assoc, hread _ (head?_append_congr hhead)]
    exact hsecond rest' hhead

/-- The value of a reader is changed, and nothing else. -/
theorem Settled.map {read : List Token → Outcome α} {ts : List Token} (h : Settled read ts)
    (f : α → β) : Settled (fun ts => (read ts).andThen fun value rest => (.ok (f value), rest)) ts :=
  h.andThen fun value _ _ => settled_here (.ok (f value)) fun _ _ => rfl

/-! ## §2. The readers look one token ahead. -/

def termOutcome (ts : List Token) : Outcome String := outcome id (readTerm ts)

def modifiersOutcome (ts : List Token) : Outcome (List Modifier) := outcome id (readModifiers ts)

def clauseOutcome (ts : List Token) : Outcome Clause := outcome id (readClause ts)

def operandOutcome (ts : List Token) : Outcome Query := outcome Subtype.val (readOperand ts)

def expressionOutcome (ts : List Token) : Outcome Query := outcome Subtype.val (readExpression ts)

def chainOutcome (left : Query) (ts : List Token) : Outcome Query :=
  outcome Subtype.val (readChain left ts)

def keysOutcome (ts : List Token) : Outcome (List SortKey) := outcome id (readKeys ts)

/-- A reader that goes on to the end leaves no tokens. -/
def finalOutcome : Except Stop Query → Outcome Query
  | .ok q => (.ok q, [])
  | .error stop => (.error stop.reason, stop.rest)

theorem settled_term (ts : List Token) : Settled termOutcome ts := by
  by_cases hterm : ∃ t s, ts.head? = some t ∧ IsTerm t s
  · obtain ⟨t, s, ht, hs⟩ := hterm
    obtain ⟨rest, rfl⟩ := List.head?_eq_some_iff.1 ht
    refine ⟨[t], rest, .ok s, rfl, fun rest' _ => ?_⟩
    cases hs <;> rfl
  · refine settled_here (.error (.unexpected .searchTerm ts.head?)) fun ts' hhead => ?_
    rw [← hhead] at hterm ⊢
    unfold termOutcome readTerm
    split
    · exact absurd ⟨_, _, rfl, .word _⟩ hterm
    · exact absurd ⟨_, _, rfl, .quoted _⟩ hterm
    · rfl

theorem length_of_termOutcome {ts rest : List Token} {s : String}
    (h : termOutcome ts = (.ok s, rest)) : rest.length < ts.length := by
  obtain ⟨rest', hread, rfl⟩ := outcome_eq_ok_iff.1 h
  exact readTerm_length hread

/-- Behind a name and a comparison stands a value. -/
theorem modifiersOutcome_valued (name : String) (c : Comparison) (ts : List Token) :
    modifiersOutcome (.slash :: .word name :: .symbol c :: ts)
      = (termOutcome ts).andThen fun value rest =>
          (modifiersOutcome rest).andThen fun ms rest =>
            (.ok ({ name, comparison := some c.text, value := some value } :: ms), rest) := by
  unfold modifiersOutcome termOutcome
  cases ts with
  | nil => rfl
  | cons t ts =>
    cases t with
    | word value | quoted value =>
      rw [readModifiers]
      show _ = (outcome id (readModifiers ts)).andThen _
      rcases readModifiers ts with stop | ⟨ms, rest⟩ <;> rfl
    | openParen | closeParen | slash | symbol _ => rfl

/-- A name that no comparison follows has no value. -/
theorem modifiersOutcome_flag (name : String) {ts : List Token}
    (hsymbol : ∀ c, ts.head? ≠ some (.symbol c)) :
    modifiersOutcome (.slash :: .word name :: ts)
      = (modifiersOutcome ts).andThen fun ms rest =>
          (.ok ({ name, comparison := none, value := none } :: ms), rest) := by
  unfold modifiersOutcome
  have hcons : ∀ c us, ts ≠ .symbol c :: us := by
    rintro c us rfl
    exact hsymbol c rfl
  rw [readModifiers]
  · rcases readModifiers ts with stop | ⟨ms, rest⟩ <;> rfl
  · exact fun c _ _ he => hcons c _ he
  · exact fun c _ _ he => hcons c _ he
  · exact fun c _ he => hcons c _ he

theorem modifiersOutcome_nameless {ts : List Token} (hname : ∀ w, ts.head? ≠ some (.word w)) :
    modifiersOutcome (.slash :: ts) = (.error (.unexpected .modifierName ts.head?), ts) := by
  cases ts with
  | nil => rfl
  | cons t ts => cases t <;> simp_all [modifiersOutcome, readModifiers, outcome, Stop.unexpected]

theorem modifiersOutcome_end {ts : List Token} (hslash : ts.head? ≠ some .slash) :
    modifiersOutcome ts = (.ok [], ts) := by
  cases ts with
  | nil => rfl
  | cons t ts => cases t <;> simp_all [modifiersOutcome, readModifiers, outcome]

theorem settled_modifiers (ts : List Token) : Settled modifiersOutcome ts := by
  by_cases hslash : ts.head? = some .slash
  · obtain ⟨afterSlash, rfl⟩ := List.head?_eq_some_iff.1 hslash
    by_cases hname : ∃ w, afterSlash.head? = some (.word w)
    · obtain ⟨name, hword⟩ := hname
      obtain ⟨afterName, rfl⟩ := List.head?_eq_some_iff.1 hword
      by_cases hsymbol : ∃ c, afterName.head? = some (.symbol c)
      · obtain ⟨c, hc⟩ := hsymbol
        obtain ⟨afterSymbol, rfl⟩ := List.head?_eq_some_iff.1 hc
        refine Settled.behind [.slash, .word name, .symbol c] ?_
          fun ts' _ => modifiersOutcome_valued name c ts'
        refine (settled_term afterSymbol).andThen fun value rest hvalue => ?_
        have hshorter := length_of_termOutcome hvalue
        exact (settled_modifiers rest).map _
      · have hrest := (settled_modifiers afterName).map
          (({ name, comparison := none, value := none } : Modifier) :: ·)
        refine Settled.behind [.slash, .word name] hrest ?_
        intro ts' hhead
        refine modifiersOutcome_flag name fun c hc => hsymbol ⟨c, ?_⟩
        rw [← hhead]
        exact hc
    · refine Settled.behind [.slash]
        (settled_here (.error (.unexpected .modifierName afterSlash.head?)) fun _ _ => rfl) ?_
      intro ts' hhead
      rw [← hhead] at hname ⊢
      exact modifiersOutcome_nameless fun w hw => hname ⟨w, hw⟩
  · refine settled_here (.ok []) fun ts' hhead => modifiersOutcome_end ?_
    rw [hhead]
    exact hslash
termination_by ts.length
decreasing_by
  all_goals
    subst_vars
    simp only [List.length_cons]
    omega

/-- What follows the first term of a clause. -/
def clauseFrom (first : String) (ts : List Token) : Outcome Clause :=
  match ts.head?.bind relationBase? with
  | none => (.ok (.bare first), ts)
  | some base =>
    (modifiersOutcome ts.tail).andThen fun modifiers rest =>
      (termOutcome rest).andThen fun term rest =>
        (.ok { index := first, relation := { base, modifiers }, term }, rest)

theorem clauseOutcome_eq (ts : List Token) :
    clauseOutcome ts = (termOutcome ts).andThen clauseFrom := by
  unfold clauseOutcome readClause termOutcome
  rcases readTerm ts with stop | ⟨first, rest⟩
  · rfl
  · show _ = clauseFrom first rest
    unfold clauseFrom modifiersOutcome termOutcome
    dsimp only
    cases rest.head?.bind relationBase? with
    | none => rfl
    | some base =>
      dsimp only
      rcases readModifiers rest.tail with stop | ⟨modifiers, rest⟩
      · rfl
      · show _ = (outcome id (readTerm rest)).andThen _
        dsimp only
        rcases readTerm rest with stop | ⟨term, rest⟩ <;> rfl

theorem settled_clauseFrom (first : String) (ts : List Token) : Settled (clauseFrom first) ts := by
  cases hbase : ts.head?.bind relationBase? with
  | none =>
    refine settled_here (.ok (.bare first)) fun ts' hhead => ?_
    rw [clauseFrom, hhead, hbase]
  | some base =>
    obtain ⟨r, hr, hrbase⟩ := Option.bind_eq_some_iff.1 hbase
    obtain ⟨tail, rfl⟩ := List.head?_eq_some_iff.1 hr
    have hrest := (settled_modifiers tail).andThen fun modifiers rest _ =>
      (settled_term rest).map fun term =>
        ({ index := first, relation := { base, modifiers }, term } : Clause)
    refine Settled.behind [r] hrest fun ts' _ => ?_
    unfold clauseFrom
    rw [List.singleton_append, List.head?_cons, Option.bind_some, hrbase, List.tail_cons]

theorem settled_clause (ts : List Token) : Settled clauseOutcome ts := by
  have h := (settled_term ts).andThen fun first rest _ => settled_clauseFrom first rest
  exact Settled.behind [] h fun ts' _ => clauseOutcome_eq ts'

/-- What follows the expression of a group. -/
def closing (q : Query) (ts : List Token) : Outcome Query :=
  match ts with
  | .closeParen :: rest => (.ok q, rest)
  | rest => (.error (.unexpected .closeParen rest.head?), rest)

theorem settled_closing (q : Query) (ts : List Token) : Settled (closing q) ts := by
  by_cases hclose : ts.head? = some .closeParen
  · obtain ⟨rest, rfl⟩ := List.head?_eq_some_iff.1 hclose
    exact Settled.behind [.closeParen] (settled_here (.ok q) fun _ _ => rfl) fun _ _ => rfl
  · refine settled_here (.error (.unexpected .closeParen ts.head?)) fun ts' hhead => ?_
    rw [← hhead] at hclose ⊢
    unfold closing
    split
    · exact absurd rfl hclose
    · rfl

theorem operandOutcome_group (ts : List Token) :
    operandOutcome (.openParen :: ts) = (expressionOutcome ts).andThen closing := by
  unfold operandOutcome expressionOutcome
  rw [readOperand]
  rcases readExpression ts with stop | ⟨q, rest, hrest⟩
  · rfl
  · show _ = closing q rest
    cases rest with
    | nil => rfl
    | cons t rest => cases t <;> rfl

theorem operandOutcome_clause {ts : List Token} (hopen : ts.head? ≠ some .openParen) :
    operandOutcome ts = (clauseOutcome ts).andThen fun c rest => (.ok (.clause c), rest) := by
  unfold operandOutcome clauseOutcome
  rw [readOperand]
  · split
    · rename_i stop hclause
      have hstop : outcome id (readClause ts) = (.error stop.reason, stop.rest) := by
        rw [hclause]
        rfl
      rw [hstop]
      rfl
    · rename_i c rest hclause
      rw [outcome_eq_ok_iff.2 ⟨rest, hclause, rfl⟩]
      rfl
  · rintro inner rfl
    exact hopen rfl

theorem length_of_operandOutcome {ts rest : List Token} {q : Query}
    (h : operandOutcome ts = (.ok q, rest)) : rest.length < ts.length := by
  obtain ⟨r, -, rfl⟩ := outcome_eq_ok_iff.1 h
  exact r.2

theorem expressionOutcome_eq (ts : List Token) :
    expressionOutcome ts = (operandOutcome ts).andThen chainOutcome := by
  unfold expressionOutcome operandOutcome
  rw [readExpression]
  rcases readOperand ts with stop | ⟨first, rest, hrest⟩
  · rfl
  · show _ = chainOutcome first rest
    unfold chainOutcome
    dsimp only
    rcases readChain first rest with stop | ⟨q, rest', hrest'⟩ <;> rfl

/-- What a word does behind an expression. -/
theorem chainOutcome_operator {w : String} {op : Operator}
    (hop : connective? w = some (.operator op)) (left : Query) {ts : List Token}
    (hslash : ts.head? ≠ some .slash) :
    chainOutcome left (.word w :: ts)
      = (operandOutcome ts).andThen fun right => chainOutcome (.boolean op left right) := by
  unfold chainOutcome operandOutcome
  rw [readChain, hop]
  dsimp only
  split
  · exact absurd rfl hslash
  · rcases readOperand ts with stop | ⟨right, rest, hrest⟩
    · rfl
    · show _ = outcome Subtype.val (readChain (.boolean op left right) rest)
      dsimp only
      rcases readChain (.boolean op left right) rest with stop | ⟨q, rest', hrest'⟩ <;> rfl

theorem chainOutcome_end {left : Query} {ts : List Token}
    (h : ∀ w, ts.head? = some (.word w) → connective? w = none) :
    chainOutcome left ts = (.ok left, ts) := by
  obtain ⟨hle, hread⟩ := readChain_end left h
  exact outcome_eq_ok_iff.2 ⟨⟨ts, hle⟩, hread, rfl⟩

theorem chainOutcome_proximity {w : String} (h : connective? w = some .proximity) (left : Query)
    (ts : List Token) : chainOutcome left (.word w :: ts) = (.error .proximity, .word w :: ts) := by
  unfold chainOutcome
  rw [readChain, h]
  rfl

theorem chainOutcome_modified {w : String} {op : Operator}
    (hop : connective? w = some (.operator op)) (left : Query) (ts : List Token) :
    chainOutcome left (.word w :: .slash :: ts) = (.error .operatorModifier, .slash :: ts) := by
  unfold chainOutcome
  rw [readChain, hop]
  rfl

/-- Without an operator the chain ends, or cannot go on, right here. -/
theorem settled_chain_here (left : Query) {ts : List Token}
    (hop : ∀ w op, ts.head? = some (.word w) → connective? w ≠ some (.operator op)) :
    Settled (chainOutcome left) ts := by
  by_cases hproximity : ∃ w, ts.head? = some (.word w) ∧ connective? w = some .proximity
  · obtain ⟨w, hw, hconnective⟩ := hproximity
    refine settled_here (.error .proximity) fun ts' hhead => ?_
    rw [hw] at hhead
    obtain ⟨tail, rfl⟩ := List.head?_eq_some_iff.1 hhead
    exact chainOutcome_proximity hconnective left tail
  · refine settled_here (.ok left) fun ts' hhead => chainOutcome_end fun w hw => ?_
    rw [hhead] at hw
    cases hconnective : connective? w with
    | none => rfl
    | some connective =>
      cases connective with
      | operator op => exact absurd hconnective (hop w op hw)
      | proximity => exact absurd ⟨w, hw, hconnective⟩ hproximity

mutual

theorem settled_operand (ts : List Token) : Settled operandOutcome ts := by
  by_cases hopen : ts.head? = some .openParen
  · obtain ⟨inner, rfl⟩ := List.head?_eq_some_iff.1 hopen
    have hinner := (settled_expression inner).andThen fun q rest _ => settled_closing q rest
    exact Settled.behind [.openParen] hinner fun ts' _ => operandOutcome_group ts'
  · refine Settled.behind [] ((settled_clause ts).map .clause) fun ts' hhead => ?_
    rw [← hhead] at hopen
    exact operandOutcome_clause hopen
termination_by (ts.length, 0)

theorem settled_expression (ts : List Token) : Settled expressionOutcome ts := by
  have h := (settled_operand ts).andThen fun q rest hread => by
    have hshorter := length_of_operandOutcome hread
    exact settled_chain q rest
  exact Settled.behind [] h fun ts' _ => expressionOutcome_eq ts'
termination_by (ts.length, 1)

theorem settled_chain (left : Query) (ts : List Token) : Settled (chainOutcome left) ts := by
  by_cases hword : ∃ w op, ts.head? = some (.word w) ∧ connective? w = some (.operator op)
  · obtain ⟨w, op, hw, hop⟩ := hword
    obtain ⟨tail, rfl⟩ := List.head?_eq_some_iff.1 hw
    by_cases hslash : tail.head? = some .slash
    · refine Settled.behind [.word w]
        (settled_here (.error .operatorModifier) fun _ _ => rfl) fun ts' hhead => ?_
      rw [hslash] at hhead
      obtain ⟨tail', rfl⟩ := List.head?_eq_some_iff.1 hhead
      exact chainOutcome_modified hop left tail'
    · have h := (settled_operand tail).andThen fun right rest hread => by
        have hshorter := length_of_operandOutcome hread
        exact settled_chain (.boolean op left right) rest
      refine Settled.behind [.word w] h fun ts' hhead => ?_
      rw [← hhead] at hslash
      exact chainOutcome_operator hop left hslash
  · exact settled_chain_here left fun w op hw hop => hword ⟨w, op, hw, hop⟩
termination_by (ts.length, 0)
decreasing_by
  all_goals
    subst_vars
    apply Prod.Lex.left
    simp only [List.length_cons]
    omega

end

theorem keysOutcome_end {ts : List Token} (h : ts.head?.bind termText? = none) :
    keysOutcome ts = (.ok [], ts) := by
  unfold keysOutcome
  rw [readKeys.eq_def]
  cases ts with
  | nil => rfl
  | cons t ts =>
    have ht : termText? t = none := h
    dsimp only
    rw [ht]
    rfl

theorem keysOutcome_cons {t : Token} {index : String} (h : termText? t = some index)
    (ts : List Token) :
    keysOutcome (t :: ts)
      = (modifiersOutcome ts).andThen fun modifiers rest =>
          (keysOutcome rest).andThen fun keys rest => (.ok ({ index, modifiers } :: keys), rest) := by
  unfold keysOutcome modifiersOutcome
  rw [readKeys, h]
  dsimp only
  split
  · rename_i stop hmodifiers
    rw [hmodifiers]
    rfl
  · rename_i modifiers rest hmodifiers
    rw [hmodifiers]
    show _ = (outcome id (readKeys rest)).andThen _
    rcases readKeys rest with stop | ⟨keys, rest'⟩ <;> rfl

theorem settled_keys (ts : List Token) : Settled keysOutcome ts := by
  cases hindex : ts.head?.bind termText? with
  | none =>
    refine settled_here (.ok []) fun ts' hhead => keysOutcome_end ?_
    rw [hhead, hindex]
  | some index =>
    obtain ⟨t, ht, htext⟩ := Option.bind_eq_some_iff.1 hindex
    obtain ⟨tail, rfl⟩ := List.head?_eq_some_iff.1 ht
    have h := (settled_modifiers tail).andThen fun modifiers rest hread => by
      have hshorter : rest.length ≤ tail.length := by
        obtain ⟨r, hmodifiers, rfl⟩ := outcome_eq_ok_iff.1 hread
        exact readModifiers_length hmodifiers
      exact (settled_keys rest).map (({ index, modifiers } : SortKey) :: ·)
    exact Settled.behind [t] h fun ts' _ => keysOutcome_cons htext ts'
termination_by ts.length
decreasing_by
  subst_vars
  simp only [List.length_cons]
  omega

theorem settled_atEnd (q : Query) (ts : List Token) :
    Settled (fun ts => finalOutcome (atEnd q ts)) ts := by
  cases ts with
  | nil =>
    refine settled_here (.ok q) fun ts' hhead => ?_
    rw [List.head?_nil, List.head?_eq_none_iff] at hhead
    rw [hhead]
    rfl
  | cons t ts =>
    refine settled_here (.error (.unexpected .operatorOrEnd (some t))) fun ts' hhead => ?_
    obtain ⟨tail, rfl⟩ := List.head?_eq_some_iff.1 hhead
    rfl

/-- What follows the word `sortBy`: sort keys up to the end of the query. -/
def sortingFrom (q : Query) (keys : List SortKey) (ts : List Token) : Outcome Query :=
  match keys with
  | [] => (.error (.unexpected .sortIndex ts.head?), ts)
  | keys => finalOutcome (atEnd (.sorted q keys) ts)

theorem settled_sortingFrom (q : Query) (keys : List SortKey) (ts : List Token) :
    Settled (sortingFrom q keys) ts := by
  cases keys with
  | nil =>
    refine settled_here (.error (.unexpected .sortIndex ts.head?)) fun ts' hhead => ?_
    rw [← hhead]
    rfl
  | cons key keys => exact settled_atEnd (.sorted q (key :: keys)) ts

theorem finalOutcome_sortBy {w : String} (hw : sameAsciiFold w "sortby" = true) (q : Query)
    (ts : List Token) :
    finalOutcome (readSorting q (.word w :: ts)) = (keysOutcome ts).andThen (sortingFrom q) := by
  unfold keysOutcome
  rw [readSorting, if_pos hw]
  rcases readKeys ts with stop | ⟨keys, rest⟩
  · rfl
  · cases keys <;> rfl

theorem readSorting_unsorted {q : Query} {ts : List Token}
    (h : ∀ w, ts.head? = some (.word w) → sameAsciiFold w "sortby" = false) :
    readSorting q ts = atEnd q ts := by
  unfold readSorting
  split
  · rename_i w rest
    rw [if_neg]
    simp [h w rfl]
  · rfl

theorem settled_sorting (q : Query) (ts : List Token) :
    Settled (fun ts => finalOutcome (readSorting q ts)) ts := by
  by_cases hsort : ∃ w, ts.head? = some (.word w) ∧ sameAsciiFold w "sortby" = true
  · obtain ⟨w, hw, hfold⟩ := hsort
    obtain ⟨tail, rfl⟩ := List.head?_eq_some_iff.1 hw
    have h := (settled_keys tail).andThen fun keys rest _ => settled_sortingFrom q keys rest
    exact Settled.behind [.word w] h fun ts' _ => finalOutcome_sortBy hfold q ts'
  · refine Settled.behind [] (settled_atEnd q ts) fun ts' hhead => ?_
    rw [List.nil_append, readSorting_unsorted]
    intro w hw
    rw [hhead] at hw
    simpa using fun hfold => hsort ⟨w, hw, hfold⟩

/-- **Readers look one token ahead**: the end that a query comes to depends on
the tokens up to the one where reading stops. -/
theorem settled_query (ts : List Token) : Settled (fun ts => finalOutcome (readQuery ts)) ts := by
  cases ts with
  | nil =>
    refine settled_here (.error .emptyQuery) fun ts' hhead => ?_
    rw [List.head?_nil, List.head?_eq_none_iff] at hhead
    rw [hhead]
    rfl
  | cons t ts =>
    have h := (settled_expression (t :: ts)).andThen fun q rest _ => settled_sorting q rest
    refine Settled.behind [] h fun ts' hhead => ?_
    obtain ⟨tail, rfl⟩ := List.head?_eq_some_iff.1 hhead
    show finalOutcome (readQuery (t :: tail)) = (expressionOutcome (t :: tail)).andThen _
    unfold expressionOutcome readQuery
    dsimp only
    rcases readExpression (t :: tail) with stop | ⟨q, rest⟩ <;> rfl

/-! ## §3. What is taken can be completed.

    A word completes what waits for a term, a name or a sort key. -/

theorem rest_of_readTerm_error {ts : List Token} {stop : Stop} (h : readTerm ts = .error stop) :
    stop.rest = ts := by
  unfold readTerm at h
  split at h
  · cases h
  · cases h
  · cases h
    rfl

theorem readModifiers_viable {ts : List Token} {stop : Stop} (h : readModifiers ts = .error stop) :
    ∃ used more ms, ts = used ++ stop.rest ∧ Modifiers (used ++ more) ms := by
  fun_induction readModifiers ts with
  | case2 name c value tail _ hread ih =>
    cases h
    obtain ⟨used, more, ms, htail, hderived⟩ := ih hread
    exact ⟨.slash :: .word name :: .symbol c :: .word value :: used, more, _, by simp [htail],
      .valued name c (.word value) hderived⟩
  | case4 name c value tail _ hread ih =>
    cases h
    obtain ⟨used, more, ms, htail, hderived⟩ := ih hread
    exact ⟨.slash :: .word name :: .symbol c :: .quoted value :: used, more, _, by simp [htail],
      .valued name c (.quoted value) hderived⟩
  | case5 name c tail =>
    cases h
    exact ⟨[.slash, .word name, .symbol c], [.word "x"], _, rfl, .valued name c (.word "x") .nil⟩
  | case7 name tail _ _ _ _ hread ih =>
    cases h
    obtain ⟨used, more, ms, htail, hderived⟩ := ih hread
    exact ⟨.slash :: .word name :: used, more, _, by simp [htail], .flag name hderived⟩
  | case8 tail =>
    cases h
    exact ⟨[.slash], [.word "x"], _, rfl, .flag "x" .nil⟩
  | _ => cases h

theorem readClause_viable {ts : List Token} {stop : Stop} (h : readClause ts = .error stop) :
    ∃ used more q, ts = used ++ stop.rest ∧ Operand (used ++ more) q := by
  unfold readClause at h
  split at h
  · rename_i hfirst
    cases h
    rw [rest_of_readTerm_error hfirst]
    exact ⟨[], [.word "x"], _, rfl, .bare (.word "x")⟩
  · rename_i first afterFirst hfirst
    obtain ⟨t, ht, rfl⟩ := readTerm_eq_ok_iff.1 hfirst
    split at h
    · cases h
    · rename_i base hbase
      obtain ⟨r, hr, hrbase⟩ := Option.bind_eq_some_iff.1 hbase
      obtain ⟨afterBase, rfl⟩ := List.head?_eq_some_iff.1 hr
      have hr' := relationBase?_eq_some_iff.1 hrbase
      rw [List.tail_cons] at h
      split at h
      · rename_i hmodifiers
        cases h
        obtain ⟨used, more, ms, rfl, hderived⟩ := readModifiers_viable hmodifiers
        have hclause := Operand.clause ht hr' hderived (.word "x")
        exact ⟨t :: r :: used, more ++ [.word "x"], _, rfl, by simpa using hclause⟩
      · rename_i modifiers afterModifiers hmodifiers
        obtain ⟨used, rfl, hderived⟩ := readModifiers_sound hmodifiers
        split at h
        · rename_i hterm
          cases h
          rw [rest_of_readTerm_error hterm]
          exact ⟨t :: r :: used, [.word "x"], _, rfl, .clause ht hr' hderived (.word "x")⟩
        · cases h

mutual

/-- Where reading an operand stops, the tokens taken start an operand. -/
theorem readOperand_viable {ts : List Token} {stop : Stop} (h : readOperand ts = .error stop) :
    ∃ used more q, ts = used ++ stop.rest ∧ Operand (used ++ more) q := by
  unfold readOperand at h
  split at h
  · rename_i inner
    split at h
    · rename_i hread
      cases h
      obtain ⟨used, more, q, rfl, hderived⟩ := readExpression_viable hread
      have hgroup := Operand.group hderived
      exact ⟨.openParen :: used, more ++ [.closeParen], q, rfl, by simpa using hgroup⟩
    · rename_i query after hafter hread
      obtain ⟨used, hused, hderived⟩ := readExpression_sound hread
      split at h
      · cases h
      · -- the expression is whole, and a parenthesis closes it
        cases h
        exact ⟨.openParen :: used, [.closeParen], query, by rw [hused]; rfl, .group hderived⟩
  · split at h
    · rename_i hclause
      cases h
      exact readClause_viable hclause
    · cases h
termination_by (ts.length, 0)

theorem readExpression_viable {ts : List Token} {stop : Stop}
    (h : readExpression ts = .error stop) :
    ∃ used more q, ts = used ++ stop.rest ∧ Expression (used ++ more) q := by
  unfold readExpression at h
  split at h
  · rename_i hfirst
    cases h
    obtain ⟨used, more, q, hused, hderived⟩ := readOperand_viable hfirst
    exact ⟨used, more, q, hused, .operand hderived⟩
  · rename_i first after hafter hfirst
    obtain ⟨done, hdone, hderived⟩ := readOperand_sound hfirst
    split at h
    · rename_i hchain
      cases h
      obtain ⟨used, more, q, hused, hwhole⟩ := readChain_viable (.operand hderived) hchain
      exact ⟨done ++ used, more, q, by simp_all, hwhole⟩
    · cases h
termination_by (ts.length, 1)

/-- Where reading a chain stops, the expression before it and the tokens taken
start an expression. -/
theorem readChain_viable {done ts : List Token} {left : Query} {stop : Stop}
    (hleft : Expression done left) (h : readChain left ts = .error stop) :
    ∃ used more q, ts = used ++ stop.rest ∧ Expression (done ++ used ++ more) q := by
  unfold readChain at h
  split at h
  · rename_i w after
    split at h
    · cases h
    · -- another operator was possible here
      cases h
      exact ⟨[], [], left, rfl, by simpa using hleft⟩
    · rename_i op hop
      have hspells := connective?_eq_operator_iff.1 hop
      split at h
      · cases h
        have hwhole := Expression.combined hleft hspells (.bare (.word "x"))
        exact ⟨[.word w], [.word "x"], _, rfl, by simpa using hwhole⟩
      · split at h
        · rename_i hright
          cases h
          obtain ⟨used, more, q, rfl, hderived⟩ := readOperand_viable hright
          have hwhole := Expression.combined hleft hspells hderived
          exact ⟨.word w :: used, more, _, rfl, by simpa using hwhole⟩
        · rename_i right after' hafter' hright
          obtain ⟨operand, hoperand, hderived⟩ := readOperand_sound hright
          split at h
          · rename_i hchain
            cases h
            have hlonger := Expression.combined hleft hspells hderived
            obtain ⟨used, more, q, hused, hwhole⟩ := readChain_viable hlonger hchain
            exact ⟨.word w :: operand ++ used, more, q, by simp_all, by simpa using hwhole⟩
          · cases h
  · cases h
termination_by (ts.length, 0)
decreasing_by
  all_goals
    subst_vars
    apply Prod.Lex.left
    simp only [List.length_cons]
    omega

end

/-! ## §4. What a query has taken can be completed. -/

theorem readKeys_viable {ts : List Token} {stop : Stop} (h : readKeys ts = .error stop) :
    ∃ used more keys, ts = used ++ stop.rest ∧ Keys (used ++ more) keys := by
  fun_induction readKeys ts with
  | case3 t tail index htext stop' hmodifiers =>
    cases h
    obtain ⟨used, more, ms, rfl, hderived⟩ := readModifiers_viable hmodifiers
    exact ⟨t :: used, more, _, rfl, .last (termText?_eq_some_iff.1 htext) hderived⟩
  | case4 t tail index htext modifiers after hmodifiers stop' hread ih =>
    cases h
    obtain ⟨key, rfl, hderived⟩ := readModifiers_sound hmodifiers
    obtain ⟨used, more, keys, rfl, hkeys⟩ := ih hread
    have hwhole := Keys.cons (termText?_eq_some_iff.1 htext) hderived hkeys
    exact ⟨t :: key ++ used, more, _, by simp, by simpa using hwhole⟩
  | _ => cases h

theorem rest_of_atEnd_error {q : Query} {ts : List Token} {stop : Stop}
    (h : atEnd q ts = .error stop) : stop.rest = ts := by
  cases ts <;> cases h
  rfl

theorem readSorting_viable {done ts : List Token} {q : Query} {stop : Stop}
    (hq : Expression done q) (h : readSorting q ts = .error stop) :
    ∃ used more q', ts = used ++ stop.rest ∧ Derives (done ++ used ++ more) q' := by
  -- without sort keys the expression is a query, as it is
  have hunsorted : ∀ {us}, atEnd q us = .error stop →
      ∃ used more q', us = used ++ stop.rest ∧ Derives (done ++ used ++ more) q' := by
    intro us hend
    exact ⟨[], [], q, (rest_of_atEnd_error hend).symm, .unsorted (by simpa using hq)⟩
  unfold readSorting at h
  split at h
  · rename_i w us
    split at h
    · rename_i hfold
      have hw := sameAsciiFold_sortBy_iff.1 hfold
      have hsorted : ∀ {used keys}, Keys used keys →
          Derives (done ++ .word w :: used) (.sorted q keys) := fun hkeys => .sorted hq hw hkeys
      split at h
      · rename_i hkeys
        cases h
        obtain ⟨used, more, keys, rfl, hderived⟩ := readKeys_viable hkeys
        exact ⟨.word w :: used, more, _, rfl, by simpa using hsorted hderived⟩
      · rename_i rest hkeys
        cases h
        rw [show (Stop.unexpected .sortIndex rest).rest = rest from rfl, readKeys_nil hkeys]
        exact ⟨[.word w], [.word "x"], _, rfl, by simpa using hsorted (.last (.word "x") .nil)⟩
      · rename_i keys rest hne hkeys
        obtain ⟨used, rfl, hderived⟩ := readKeys_sound hkeys (by simpa using hne)
        rw [rest_of_atEnd_error h]
        exact ⟨.word w :: used, [], _, rfl, by simpa using hsorted hderived⟩
    · exact hunsorted h
  · exact hunsorted h

/-- Where reading a query stops, the tokens taken start a query. -/
theorem readQuery_viable {ts : List Token} {stop : Stop} (h : readQuery ts = .error stop) :
    ∃ used more q, ts = used ++ stop.rest ∧ Derives (used ++ more) q := by
  unfold readQuery at h
  split at h
  · cases h
    exact ⟨[], [.word "x"], _, rfl, .unsorted (.operand (.bare (.word "x")))⟩
  · split at h
    · rename_i hread
      cases h
      obtain ⟨used, more, q, hused, hderived⟩ := readExpression_viable hread
      exact ⟨used, more, q, hused, .unsorted hderived⟩
    · rename_i q rest hread
      obtain ⟨done, hdone, hderived⟩ := readExpression_sound hread
      obtain ⟨used, more, q', hused, hwhole⟩ := readSorting_viable hderived h
      exact ⟨done ++ used, more, q', by rw [hdone, hused, List.append_assoc], hwhole⟩

/-! ## §5. The first impossible token. -/

/-- The tokens of a query with its end, `none`, behind them. -/
def ended (ts : List Token) : List (Option Token) := ts.map some ++ [none]

theorem map_some_prefix_ended_iff {ts us : List Token} :
    ts.map some <+: ended us ↔ ts <+: us := by
  induction ts generalizing us with
  | nil => simp
  | cons t ts ih =>
    cases us with
    | nil => simp [ended]
    | cons u us =>
      show some t :: ts.map some <+: some u :: ended us ↔ _
      rw [List.cons_prefix_cons, List.cons_prefix_cons, ih, Option.some.injEq]

theorem ended_prefix_ended_iff {ts us : List Token} : ended ts <+: ended us ↔ ts = us := by
  induction ts generalizing us with
  | nil => cases us <;> simp [ended]
  | cons t ts ih =>
    cases us with
    | nil => simp [ended]
    | cons u us =>
      show some t :: ended ts <+: some u :: ended us ↔ _
      rw [List.cons_prefix_cons, ih, List.cons.injEq, Option.some.injEq]

/-- Tokens that agree with these up to the one where reading stops are no query
either. -/
theorem not_prefix_of_readQuery_error {used us : List Token} {stop : Stop} {q : Query}
    (h : readQuery (used ++ stop.rest) = .error stop) (hus : readQuery us = .ok q) :
    ¬ (ended (used ++ stop.rest)).take (used.length + 1) <+: ended us := by
  intro hstart
  obtain ⟨taken, rest, result, hsplit, hsettled⟩ := settled_query (used ++ stop.rest)
  have hstop : finalOutcome (readQuery (taken ++ rest)) = (result, rest) := hsettled rest rfl
  rw [← hsplit, h] at hstop
  cases hstop
  obtain rfl := List.append_cancel_right hsplit
  have hlength : (used.map some).length = used.length := List.length_map some
  cases hrest : stop.rest with
  | nil =>
    -- reading stops at the end, which settles what the tokens are
    rw [hrest, List.append_nil] at h hstart
    have hwhole : (ended used).take (used.length + 1) = ended used :=
      List.take_of_length_le (by simp [ended])
    rw [hwhole, ended_prefix_ended_iff] at hstart
    rw [hstart, hus] at h
    cases h
  | cons t tail =>
    rw [hrest] at hsettled hstart
    have htaken : (ended (used ++ t :: tail)).take (used.length + 1) = (used ++ [t]).map some := by
      rw [ended, List.map_append, List.append_assoc, ← hlength, List.take_length_add_append]
      simp
    rw [htaken, map_some_prefix_ended_iff] at hstart
    obtain ⟨more, rfl⟩ := hstart
    have hsame := hsettled (t :: more) rfl
    rw [List.append_assoc, List.singleton_append] at hus
    dsimp only at hsame
    rw [hus] at hsame
    cases hsame

/-- **Reading stops at the first impossible token.**  The tokens before it
start some query, and no query starts with the tokens up to it; the token may
be the end of the query.  The fault of a text with these tokens names the byte
where that token is spelled. -/
theorem readQuery_stops_at_first_impossible {ts : List Token} {stop : Stop}
    (h : readQuery ts = .error stop) :
    ∃ i ≤ ts.length, stop.rest = ts.drop i ∧
      (∃ us q, readQuery us = .ok q ∧ (ended ts).take i <+: ended us) ∧
      (∀ us q, readQuery us = .ok q → ¬ (ended ts).take (i + 1) <+: ended us) ∧
      ∀ text located, scan text = .ok located → located.map Located.token = ts →
        Query.parse text
          = .error { reason := stop.reason, position := tokenPosition text located i } ∧
        ∃ before after, text.toList = before ++ spellingAt located i ++ after ∧
          byteLength before = tokenPosition text located i := by
  obtain ⟨used, more, q, rfl, hderived⟩ := readQuery_viable h
  refine ⟨used.length, by simp, by simp, ?_, ?_, ?_⟩
  · refine ⟨used ++ more, q, readQuery_of_derives hderived, ?_⟩
    have htaken : (ended (used ++ stop.rest)).take used.length = used.map some := by
      simp [ended]
    rw [htaken, map_some_prefix_ended_iff]
    exact List.prefix_append used more
  · intro us q' hus
    exact not_prefix_of_readQuery_error h hus
  · intro text located hscan htokens
    have hlength : located.length = used.length + stop.rest.length := by
      rw [← List.length_append, ← htokens, List.length_map]
    refine ⟨?_, (written_of_scanFrom hscan).exists_spellingAt (by omega)⟩
    unfold Query.parse
    rw [hscan]
    dsimp only
    rw [htokens, h]
    dsimp only
    rw [hlength, Nat.add_sub_cancel]

/-- In `(ü or b sortBy c` the word `sortBy` is impossible, as the parenthesis is
open: `(ü or b` starts a query. -/
theorem readQuery_stops_inside_parentheses :
    let text := "(ü or b sortBy c"
    let ts : List Token := [.openParen, .word "ü", .word "or", .word "b", .word "sortBy", .word "c"]
    let stop := Stop.unexpected .closeParen [.word "sortBy", .word "c"]
    readQuery ts = .error stop ∧
      (∃ us q, readQuery us = .ok q ∧ (ended ts).take 4 <+: ended us) ∧
      (∀ us q, readQuery us = .ok q → ¬ (ended ts).take 5 <+: ended us) ∧
      Query.parse text = .error { reason := stop.reason, position := 9 } := by
  intro text ts stop
  have hor : connective? "or" = some (.operator .or) ∧ isKeyword "or" = true := by decide
  have hsortBy : connective? "sortBy" = none ∧ isKeyword "sortBy" = true := by decide
  have hread : readQuery ts = .error stop := by
    simp [ts, stop, readQuery, readExpression, readOperand, readChain, readClause, readTerm,
      relationBase?, hor, hsortBy]
  have hscan : scan text = .ok [⟨.openParen, 0⟩, ⟨.word "ü", 1⟩, ⟨.word "or", 4⟩, ⟨.word "b", 7⟩,
      ⟨.word "sortBy", 9⟩, ⟨.word "c", 16⟩] := scan_eq_ok_iff.2 (by decide +kernel)
  obtain ⟨i, hi, hrest, hpossible, himpossible, hplace⟩ := readQuery_stops_at_first_impossible hread
  -- two tokens are left of six
  have hfour : i = 4 := by
    have hlength : 2 = 6 - i := by simpa [ts, stop, Stop.unexpected] using congrArg List.length hrest
    omega
  subst hfour
  exact ⟨hread, hpossible, himpossible, (hplace text _ hscan rfl).1⟩

end CqlToSql.Grammar
