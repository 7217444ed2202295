/-
  CqlToSql.Proofs.Sql.Reader
  ──────────────────────────
  **A reader of SQL conditions**, and their truth in three-valued logic.

  The reader takes literals as they are and looks for operators outside all
  parentheses.  `OR` binds least, then `AND`, then `IS NOT TRUE`; what is in
  one pair of parentheses is read like a condition of its own, and all else
  is an atomic predicate:

      a OR b     a AND b     a IS NOT TRUE     (a)     predicate

  Conditions of balanced text, put into parentheses and joined by operators,
  are read as what they are joined from (`read_and`, `read_or`,
  `read_and_isNotTrue`).
-/
import CqlToSql.Proofs.Sql.Scanner

namespace CqlToSql.Sql

open CqlToSql.Text

/-! ## §1. Tokens. -/

/-- A token of SQL text. -/
inductive Token where
  | opening
  | closing
  | word (letters : List Char)
  | quoted (body : List Char)
  | symbol (c : Char)
  | blank
  deriving Repr, DecidableEq

/-- White space of SQL. -/
def isSpace (c : Char) : Bool := [' ', '\t', '\n', '\r', '\x0b', '\x0c'].contains c

/-- Can stand in a word of SQL. -/
def isWordChar (c : Char) : Bool :=
  c.isAlphanum || c == '_' || c == '$' || decide (128 ≤ c.toNat)

/-- The tokens with one more part in front of them.  A letter joins the word
that it stands before. -/
def push : Mark → List Token → List Token
  | .literal body, ts => .quoted body :: ts
  | .code c, ts =>
    if c = '(' then .opening :: ts
    else if c = ')' then .closing :: ts
    else if isSpace c then .blank :: ts
    else if isWordChar c then
      match ts with
      | .word letters :: rest => .word (c :: letters) :: rest
      | ts => .word [c] :: ts
    else .symbol c :: ts

/-- The tokens of scanned text, white space included. -/
def spaced (ms : List Mark) : List Token := ms.foldr push []

/-- The tokens of a text. -/
def tokens (s : String) : List Token := (spaced (marks s)).filter (· ≠ .blank)

/-- The token is that word, in any letter case. -/
def Token.isKeyword (keyword : String) : Token → Bool
  | .word letters => letters.map asciiLower == keyword.toList
  | _ => false

/-! ## §2. Expressions. -/

/-- A condition as it is read. -/
inductive Expr where
  /-- A predicate, with its tokens. -/
  | atom (tokens : List Token)
  | and (left right : Expr)
  | or (left right : Expr)
  | isNotTrue (inner : Expr)
  deriving Repr, DecidableEq

/-- The number of open parentheses after a token. -/
def Token.shift (depth : Nat) : Token → Nat
  | .opening => depth + 1
  | .closing => depth - 1
  | _ => depth

/-- What stands before and after the first token outside all parentheses that
`key` accepts. -/
def cutTop (key : Token → Bool) (depth : Nat) : List Token → Option (List Token × List Token)
  | [] => none
  | t :: ts =>
    if depth = 0 ∧ key t then some ([], ts)
    else (cutTop key (t.shift depth) ts).map fun (before, rest) => (t :: before, rest)

/-- What stands before the parenthesis that closes the outermost one, which
must be the last token. -/
def inside (depth : Nat) : List Token → Option (List Token)
  | [] => none
  | t :: ts =>
    if depth = 0 ∧ t = .closing then (if ts = [] then some [] else none)
    else (inside (t.shift depth) ts).map (t :: ·)

/-- What stands in the only outermost pair of parentheses. -/
def parenthesized? : List Token → Option (List Token)
  | .opening :: ts => inside 0 ts
  | _ => none

/-- What stands before `IS NOT TRUE` at the end. -/
def beforeIsNotTrue? (ts : List Token) : Option (List Token) :=
  match ts.reverse with
  | t :: n :: i :: rest =>
    if t.isKeyword "true" && n.isKeyword "not" && i.isKeyword "is" then some rest.reverse else none
  | _ => none

theorem cutTop_length {key : Token → Bool} {depth : Nat} {ts before rest : List Token}
    (h : cutTop key depth ts = some (before, rest)) :
    before.length < ts.length ∧ rest.length < ts.length := by
  induction ts generalizing depth before with
  | nil => cases h
  | cons t ts ih =>
    unfold cutTop at h
    split at h
    · cases h
      simp
    · obtain ⟨⟨b, r⟩, hcut, he⟩ := Option.map_eq_some_iff.1 h
      cases he
      have := ih hcut
      simp only [List.length_cons]
      omega

theorem inside_length {depth : Nat} {ts inner : List Token} (h : inside depth ts = some inner) :
    inner.length < ts.length := by
  induction ts generalizing depth inner with
  | nil => cases h
  | cons t ts ih =>
    unfold inside at h
    split at h
    · split at h
      · cases h
        simp
      · cases h
    · obtain ⟨rest, hin, rfl⟩ := Option.map_eq_some_iff.1 h
      have := ih hin
      simp only [List.length_cons]
      omega

theorem parenthesized?_length {ts inner : List Token} (h : parenthesized? ts = some inner) :
    inner.length < ts.length := by
  unfold parenthesized? at h
  split at h
  · have := inside_length h
    simp only [List.length_cons]
    omega
  · cases h

theorem beforeIsNotTrue?_length {ts front : List Token} (h : beforeIsNotTrue? ts = some front) :
    front.length < ts.length := by
  unfold beforeIsNotTrue? at h
  split at h
  · rename_i t n i rest hr
    split at h
    · cases h
      have hlen := congrArg List.length hr
      simp only [List.length_reverse, List.length_cons] at hlen ⊢
      omega
    · cases h
  · cases h

/-- The condition that tokens are read as. -/
def read (ts : List Token) : Expr :=
  match _ho : cutTop (Token.isKeyword "or") 0 ts with
  | some (left, right) => .or (read left) (read right)
  | none =>
    match _ha : cutTop (Token.isKeyword "and") 0 ts with
    | some (left, right) => .and (read left) (read right)
    | none =>
      match _hn : beforeIsNotTrue? ts with
      | some front => .isNotTrue (read front)
      | none =>
        match _hp : parenthesized? ts with
        | some inner => read inner
        | none => .atom ts
termination_by ts.length
decreasing_by
  · exact (cutTop_length _ho).1
  · exact (cutTop_length _ho).2
  · exact (cutTop_length _ha).1
  · exact (cutTop_length _ha).2
  · exact beforeIsNotTrue?_length _hn
  · exact parenthesized?_length _hp

/-! ## §3. Three-valued truth. -/

/-- The value of a condition. -/
inductive Truth where
  | yes
  | no
  /-- Neither, because a value is missing. -/
  | null
  deriving Repr, DecidableEq

/-- A conjunction is false when one part is, and true when both are. -/
def Truth.and : Truth → Truth → Truth
  | .no, _ => .no
  | _, .no => .no
  | .yes, .yes => .yes
  | _, _ => .null

/-- A disjunction is true when one part is, and false when both are. -/
def Truth.or : Truth → Truth → Truth
  | .yes, _ => .yes
  | _, .yes => .yes
  | .no, .no => .no
  | _, _ => .null

/-- The test `IS NOT TRUE`, which is never unknown. -/
def Truth.isNotTrue : Truth → Truth
  | .yes => .no
  | _ => .yes

/-- The values of predicates. -/
abbrev Assignment : Type := List Token → Truth

/-- The value of a condition, given those of its predicates. -/
def Expr.eval (v : Assignment) : Expr → Truth
  | .atom ts => v ts
  | .and left right => (left.eval v).and (right.eval v)
  | .or left right => (left.eval v).or (right.eval v)
  | .isNotTrue inner => (inner.eval v).isNotTrue

/-- The value of the condition that a text is read as. -/
def evalText (v : Assignment) (s : String) : Truth := (read (tokens s)).eval v

theorem Truth.and_eq_yes_iff {a b : Truth} : a.and b = .yes ↔ a = .yes ∧ b = .yes := by
  cases a <;> cases b <;> decide

theorem Truth.or_eq_yes_iff {a b : Truth} : a.or b = .yes ↔ a = .yes ∨ b = .yes := by
  cases a <;> cases b <;> decide

theorem Truth.isNotTrue_eq_yes_iff {a : Truth} : a.isNotTrue = .yes ↔ a ≠ .yes := by
  cases a <;> decide

/-- The value of a condition that is not unknown. -/
def Truth.ofBool : Bool → Truth
  | true => .yes
  | false => .no

theorem Truth.and_ofBool (a b : Bool) : (ofBool a).and (ofBool b) = ofBool (a && b) := by
  cases a <;> cases b <;> rfl

theorem Truth.or_ofBool (a b : Bool) : (ofBool a).or (ofBool b) = ofBool (a || b) := by
  cases a <;> cases b <;> rfl

theorem Truth.ofBool_eq_yes_iff {a : Bool} : ofBool a = .yes ↔ a = true := by
  cases a <;> decide

theorem Truth.ofBool_eq_no_iff {a : Bool} : ofBool a = .no ↔ a = false := by
  cases a <;> decide

/-! ## §4. Balanced tokens. -/

/-- The number of open parentheses after a token, unless it closes nothing. -/
def Token.depth? (depth : Nat) : Token → Option Nat
  | .opening => some (depth + 1)
  | .closing => if depth = 0 then none else some (depth - 1)
  | _ => some depth

/-- The number of open parentheses after some tokens, unless one closes
nothing. -/
def depthAfter (depth : Nat) : List Token → Option Nat
  | [] => some depth
  | t :: ts => (t.depth? depth).bind (depthAfter · ts)

/-- Every parenthesis that the tokens open is closed in them. -/
def Closed (ts : List Token) : Prop := depthAfter 0 ts = some 0

theorem depthAfter_append (depth : Nat) (ts us : List Token) :
    depthAfter depth (ts ++ us) = (depthAfter depth ts).bind (depthAfter · us) := by
  induction ts generalizing depth with
  | nil => rfl
  | cons t ts ih =>
    rw [List.cons_append, depthAfter, depthAfter]
    cases t.depth? depth with
    | none => rfl
    | some d => exact ih d

/-- A token that closes something leaves the same number open for both ways
to count. -/
theorem Token.shift_of_depth? {t : Token} {d e : Nat} (h : t.depth? d = some e) : t.shift d = e := by
  cases t <;> simp_all [Token.depth?, Token.shift]

theorem Token.depth?_succ {t : Token} {d e : Nat} (h : t.depth? d = some e) :
    t.depth? (d + 1) = some (e + 1) := by
  cases t with
  | closing =>
    simp only [Token.depth?] at h ⊢
    split at h
    · cases h
    · cases h
      simp only [Nat.add_eq_zero_iff, Nat.succ_ne_self, and_false, if_false, Option.some.injEq]
      omega
  | _ => simp_all [Token.depth?]

/-- Balanced tokens do at every depth what they do at the outermost one. -/
theorem depthAfter_succ {ts : List Token} {d e : Nat} (h : depthAfter d ts = some e) :
    depthAfter (d + 1) ts = some (e + 1) := by
  induction ts generalizing d with
  | nil =>
    cases h
    rfl
  | cons t ts ih =>
    obtain ⟨d', hd, hrest⟩ := Option.bind_eq_some_iff.1 h
    rw [depthAfter, Token.depth?_succ hd]
    exact ih hrest

/-! ## §5. Reading over parentheses. -/

variable {key : Token → Bool} {ts us : List Token}

/-- In parentheses no token is cut at. -/
theorem cutTop_skip {d e : Nat} (h : depthAfter d ts = some e) (rest : List Token) :
    cutTop key (d + 1) (ts ++ rest) =
      (cutTop key (e + 1) rest).map fun (before, after) => (ts ++ before, after) := by
  induction ts generalizing d with
  | nil =>
    cases h
    simp
  | cons t ts ih =>
    obtain ⟨d', hd, hrest⟩ := Option.bind_eq_some_iff.1 h
    rw [List.cons_append, cutTop, if_neg (by simp), Token.shift_of_depth? (Token.depth?_succ hd),
      ih hrest, Option.map_map]
    rfl

/-- A pair of parentheses is passed over. -/
theorem cutTop_parenthesized (h : Closed ts) (ho : key .opening = false)
    (rest : List Token) :
    cutTop key 0 (.opening :: (ts ++ .closing :: rest)) =
      (cutTop key 0 rest).map fun (before, after) =>
        (.opening :: (ts ++ .closing :: before), after) := by
  rw [cutTop, if_neg (by simp [ho])]
  show (cutTop key (0 + 1) _).map _ = _
  rw [cutTop_skip h, cutTop, if_neg (by simp)]
  simp only [Token.shift, Option.map_map]
  rfl

theorem inside_skip {d e : Nat} (h : depthAfter d ts = some e) (rest : List Token) :
    inside d (ts ++ rest) = (inside e rest).map (ts ++ ·) := by
  induction ts generalizing d with
  | nil =>
    cases h
    simp
  | cons t ts ih =>
    obtain ⟨d', hd, hrest⟩ := Option.bind_eq_some_iff.1 h
    -- a token that closes the outermost parenthesis would have no depth after it
    have hstop : ¬ (d = 0 ∧ t = .closing) := by
      rintro ⟨rfl, rfl⟩
      cases hd
    rw [List.cons_append, inside, if_neg hstop, Token.shift_of_depth? hd, ih hrest,
      Option.map_map]
    rfl

theorem parenthesized?_of_closed (h : Closed ts) :
    parenthesized? (.opening :: (ts ++ [.closing])) = some ts := by
  rw [parenthesized?, inside_skip h]
  simp [inside]

theorem beforeIsNotTrue?_last {last : Token} (h : last.isKeyword "true" = false) (ts : List Token) :
    beforeIsNotTrue? (ts ++ [last]) = none := by
  unfold beforeIsNotTrue?
  rw [List.reverse_append]
  split
  · rename_i t n i rest hr
    rw [List.reverse_singleton, List.singleton_append, List.cons.injEq] at hr
    rw [← hr.1, h]
    rfl
  · rfl

theorem read_of_or {left right : List Token}
    (h : cutTop (Token.isKeyword "or") 0 ts = some (left, right)) :
    read ts = .or (read left) (read right) := by
  rw [read]
  split <;> simp_all

theorem read_of_and {left right : List Token}
    (ho : cutTop (Token.isKeyword "or") 0 ts = none)
    (h : cutTop (Token.isKeyword "and") 0 ts = some (left, right)) :
    read ts = .and (read left) (read right) := by
  rw [read]
  split
  · simp_all
  · split <;> simp_all

theorem read_of_isNotTrue {front : List Token}
    (ho : cutTop (Token.isKeyword "or") 0 ts = none)
    (ha : cutTop (Token.isKeyword "and") 0 ts = none)
    (h : beforeIsNotTrue? ts = some front) : read ts = .isNotTrue (read front) := by
  rw [read]
  split
  · simp_all
  · split
    · simp_all
    · split <;> simp_all

theorem read_of_parenthesized {inner : List Token}
    (ho : cutTop (Token.isKeyword "or") 0 ts = none)
    (ha : cutTop (Token.isKeyword "and") 0 ts = none)
    (hn : beforeIsNotTrue? ts = none) (h : parenthesized? ts = some inner) :
    read ts = read inner := by
  rw [read]
  split
  · simp_all
  · split
    · simp_all
    · split
      · simp_all
      · split <;> simp_all

theorem read_of_atom (ho : cutTop (Token.isKeyword "or") 0 ts = none)
    (ha : cutTop (Token.isKeyword "and") 0 ts = none)
    (hn : beforeIsNotTrue? ts = none) (hp : parenthesized? ts = none) : read ts = .atom ts := by
  rw [read]
  split
  · simp_all
  · split
    · simp_all
    · split
      · simp_all
      · split <;> simp_all

/-- Parentheses around a condition do not matter. -/
theorem read_parentheses (h : Closed ts) : read (.opening :: (ts ++ [.closing])) = read ts := by
  refine read_of_parenthesized ?_ ?_ (beforeIsNotTrue?_last rfl (.opening :: ts))
    (parenthesized?_of_closed h)
  · rw [cutTop_parenthesized h rfl]
    rfl
  · rw [cutTop_parenthesized h rfl]
    rfl

/-! ## §6. From text to tokens. -/

/-- The number of open parentheses after a part of text. -/
def Mark.depth? (depth : Nat) : Mark → Option Nat
  | .literal _ => some depth
  | .code c => if c = '(' then some (depth + 1) else if c = ')' then Token.closing.depth? depth
      else some depth

/-- A part of text opens and closes what its token does. -/
theorem depthAfter_push (m : Mark) (ts : List Token) (depth : Nat) :
    depthAfter depth (push m ts) = (m.depth? depth).bind (depthAfter · ts) := by
  cases m with
  | literal body => rfl
  | code c =>
    simp only [push, Mark.depth?]
    by_cases ho : c = '('
    · rw [if_pos ho, if_pos ho]
      rfl
    · rw [if_neg ho, if_neg ho]
      by_cases hc : c = ')'
      · rw [if_pos hc, if_pos hc]
        rfl
      · rw [if_neg hc, if_neg hc]
        split
        · rfl
        · split
          · split <;> rfl
          · rfl

/-- The number of open parentheses after some parts of text. -/
def marksDepth (depth : Nat) : List Mark → Option Nat
  | [] => some depth
  | m :: ms => (m.depth? depth).bind (marksDepth · ms)

theorem depthAfter_spaced (ms : List Mark) (depth : Nat) :
    depthAfter depth (spaced ms) = marksDepth depth ms := by
  induction ms generalizing depth with
  | nil => rfl
  | cons m ms ih =>
    show depthAfter depth (push m (spaced ms)) = _
    rw [depthAfter_push, marksDepth]
    cases m.depth? depth with
    | none => rfl
    | some d => exact ih d

theorem depthAfter_filter (ts : List Token) (depth : Nat) :
    depthAfter depth (ts.filter (· ≠ .blank)) = depthAfter depth ts := by
  induction ts generalizing depth with
  | nil => rfl
  | cons t ts ih =>
    by_cases ht : t = .blank
    · subst ht
      exact ih depth
    · rw [List.filter_cons_of_pos (by simpa using ht), depthAfter, depthAfter]
      cases t.depth? depth with
      | none => rfl
      | some d => exact ih d

/-- Outside literals a character counts for the scanner as for a reader. -/
theorem Mark.depth?_code {depth : Nat} {c : Char} {q : Place} (hc : c ≠ '\'')
    (h : Place.next true ⟨false, depth⟩ c = some q) : (Mark.code c).depth? depth = some q.depth := by
  unfold Place.next at h
  rw [if_neg hc, if_neg (by simp)] at h
  unfold Mark.depth? Token.depth?
  cases depth <;> grind

theorem Place.next_depth_inside {depth : Nat} {c : Char} {q : Place}
    (h : Place.next true ⟨true, depth⟩ c = some q) : q.depth = depth := by
  unfold Place.next at h
  grind

theorem Place.next_quote {p q : Place} (h : p.next true '\'' = some q) : q.depth = p.depth := by
  cases h
  rfl

/-- The scanner counts parentheses as a reader of the text does. -/
theorem marksDepth_marks {p q : Place} {scan : Scan} {cs : List Char}
    (h : p.after true cs = some q) (hs : scan.inLiteral = p.inLiteral) :
    marksDepth p.depth (scan.marks cs) = some q.depth := by
  induction cs generalizing p scan with
  | nil =>
    cases h
    cases scan <;> rfl
  | cons c cs ih =>
    unfold Place.after at h
    split at h
    · rename_i p' hn
      have hrest := ih h (Scan.inLiteral_next hn hs)
      obtain ⟨inLiteral, depth⟩ := p
      subst hs
      unfold Scan.marks
      by_cases hc : c = '\''
      · -- a quote counts for nothing and completes no part
        subst hc
        rw [Place.next_quote hn] at hrest
        cases scan <;> exact hrest
      · cases scan with
        | code =>
          simp only [Scan.next, if_neg hc, List.cons_append, List.nil_append, marksDepth,
            Mark.depth?_code hc hn] at hrest ⊢
          exact hrest
        | literal body =>
          rw [Place.next_depth_inside hn] at hrest
          simp only [Scan.next, if_neg hc, List.nil_append] at hrest ⊢
          exact hrest
        -- the literal is complete now, and counts for nothing
        | quote body =>
          simp only [Scan.next, if_neg hc, List.cons_append, List.nil_append] at hrest ⊢
          show ((Mark.code c).depth? depth).bind (marksDepth · (Scan.code.marks cs)) = _
          rw [Mark.depth?_code hc hn]
          exact hrest
    · cases h

/-- Balanced text has balanced tokens. -/
theorem closed_tokens {s : String} (h : Balanced true s) : Closed (tokens s) := by
  unfold Closed tokens
  rw [depthAfter_filter, depthAfter_spaced]
  exact marksDepth_marks h rfl

/-! ## §7. Tokens of joined texts. -/

/-- What does not start with a word does not change the tokens before it. -/
theorem foldr_push_append (ms : List Mark) {us : List Token}
    (hu : ∀ letters rest, us ≠ .word letters :: rest) :
    ms.foldr push us = spaced ms ++ us := by
  -- only a letter before a word looks at the tokens behind it
  have hpush : ∀ (m : Mark) (ts : List Token), push m (ts ++ us) = push m ts ++ us := by
    intro m ts
    cases m with
    | literal body => rfl
    | code c =>
      simp only [push]
      cases ts with
      | nil => grind
      | cons t ts => grind
  induction ms with
  | nil => rfl
  | cons m ms ih =>
    rw [List.foldr_cons, ih, hpush]
    rfl

/-- Text that ends outside literals, before a closing parenthesis. -/
theorem tokens_append_closing {a b : String} (ha : EndsOutside a)
    (hb : b.toList.head? = some ')') : tokens (a ++ b) = tokens a ++ tokens b := by
  obtain ⟨rest, hrest⟩ := List.head?_eq_some_iff.1 hb
  have hmarks : marks b = .code ')' :: Scan.code.marks rest := by
    unfold marks
    rw [hrest]
    rfl
  unfold tokens
  rw [marks_append ha (by simp [hrest]), spaced, List.foldr_append, ← spaced,
    foldr_push_append, List.filter_append]
  intro letters others
  rw [hmarks]
  simp [spaced, push]

theorem tokens_opening (s : String) : tokens ("(" ++ s) = .opening :: tokens s := by
  unfold tokens marks
  rw [String.toList_append]
  rfl

/-- Two texts in parentheses, with text between and behind them that starts
with the parenthesis that closes. -/
theorem tokens_joined {a b between close : String} {middle last : List Token}
    (ha : EndsOutside a) (hb : EndsOutside b) (hbetween : between.toList.head? = some ')')
    (hmiddle : ∀ s, tokens (between ++ s) = .closing :: (middle ++ tokens s))
    (hclose : close.toList.head? = some ')') (hlast : tokens close = .closing :: last) :
    tokens ("(" ++ a ++ between ++ b ++ close) =
      .opening :: (tokens a ++ .closing :: (middle ++ (tokens b ++ .closing :: last))) := by
  have hassoc : "(" ++ a ++ between ++ b ++ close = "(" ++ (a ++ (between ++ (b ++ close))) := by
    simp only [String.append_assoc]
  have hstart : (between ++ (b ++ close)).toList.head? = some ')' := by
    rw [String.toList_append, List.head?_append, hbetween]
    rfl
  rw [hassoc, tokens_opening, tokens_append_closing ha hstart, hmiddle,
    tokens_append_closing hb hclose, hlast]

/-! ## §8. Conditions under operators. -/

theorem cutTop_parenthesized_last (h : Closed ts) (ho : key .opening = false) :
    cutTop key 0 (.opening :: (ts ++ [.closing])) = none := by
  rw [cutTop_parenthesized h ho]
  rfl

/-- Two conditions in parentheses are cut at the operator between them. -/
theorem cutTop_operator {op : Token} (ht : Closed ts) (ho : key .opening = false)
    (hop : key op = true) :
    cutTop key 0 (.opening :: (ts ++ .closing :: op :: us)) =
      some (.opening :: (ts ++ [.closing]), us) := by
  rw [cutTop_parenthesized ht ho, cutTop, if_pos ⟨rfl, hop⟩]
  rfl

theorem read_conjunction (ht : Closed ts) (hu : Closed us) :
    read (.opening :: (ts ++ .closing :: .word "AND".toList :: .opening :: (us ++ [.closing]))) =
      .and (read ts) (read us) := by
  have hand : cutTop (Token.isKeyword "and") 0
      (.opening :: (ts ++ .closing :: .word "AND".toList :: .opening :: (us ++ [.closing]))) =
      some (.opening :: (ts ++ [.closing]), .opening :: (us ++ [.closing])) :=
    cutTop_operator ht rfl (by decide)
  -- an `OR` inside the operands stands in parentheses, so none is found
  have hor : cutTop (Token.isKeyword "or") 0
      (.opening :: (ts ++ .closing :: .word "AND".toList :: .opening :: (us ++ [.closing]))) =
      none := by
    rw [cutTop_parenthesized ht rfl, cutTop, if_neg (by decide)]
    show Option.map _ (Option.map _ (cutTop _ 0 _)) = none
    rw [cutTop_parenthesized_last hu rfl]
    rfl
  rw [read_of_and hor hand, read_parentheses ht, read_parentheses hu]

theorem read_disjunction (ht : Closed ts) (hu : Closed us) :
    read (.opening :: (ts ++ .closing :: .word "OR".toList :: .opening :: (us ++ [.closing]))) =
      .or (read ts) (read us) := by
  have hor : cutTop (Token.isKeyword "or") 0
      (.opening :: (ts ++ .closing :: .word "OR".toList :: .opening :: (us ++ [.closing]))) =
      some (.opening :: (ts ++ [.closing]), .opening :: (us ++ [.closing])) :=
    cutTop_operator ht rfl (by decide)
  rw [read_of_or hor, read_parentheses ht, read_parentheses hu]

/-- The tokens of `IS NOT TRUE`. -/
def isNotTrueTokens : List Token :=
  [.word "IS".toList, .word "NOT".toList, .word "TRUE".toList]

theorem read_isNotTrue (hu : Closed us) :
    read (.opening :: (us ++ .closing :: isNotTrueTokens)) = .isNotTrue (read us) := by
  have hor : cutTop (Token.isKeyword "or") 0 (.opening :: (us ++ .closing :: isNotTrueTokens)) =
      none := by
    rw [cutTop_parenthesized hu rfl]
    rfl
  have hand : cutTop (Token.isKeyword "and") 0 (.opening :: (us ++ .closing :: isNotTrueTokens)) =
      none := by
    rw [cutTop_parenthesized hu rfl]
    rfl
  have hbefore : beforeIsNotTrue? (.opening :: (us ++ .closing :: isNotTrueTokens)) =
      some (.opening :: (us ++ [.closing])) := by
    have hreverse : (Token.opening :: (us ++ .closing :: isNotTrueTokens)).reverse =
        .word "TRUE".toList :: .word "NOT".toList :: .word "IS".toList
          :: (Token.opening :: (us ++ [.closing])).reverse := by
      simp [isNotTrueTokens]
    unfold beforeIsNotTrue?
    rw [hreverse]
    dsimp only
    rw [if_pos (by decide), List.reverse_reverse]
  rw [read_of_isNotTrue hor hand hbefore, read_parentheses hu]

theorem closed_isNotTrue (hu : Closed us) :
    Closed (.opening :: (us ++ .closing :: isNotTrueTokens)) := by
  have hskip := depthAfter_succ hu
  unfold Closed
  show depthAfter (0 + 1) (us ++ .closing :: isNotTrueTokens) = some 0
  rw [depthAfter_append, hskip]
  rfl

variable {a b : String}

theorem read_and (ha : Balanced true a) (hb : Balanced true b) :
    read (tokens ("(" ++ a ++ ") AND (" ++ b ++ ")")) = .and (read (tokens a)) (read (tokens b)) := by
  have hmiddle : ∀ s, tokens (") AND (" ++ s) =
      .closing :: ([.word "AND".toList, .opening] ++ tokens s) := by
    intro s
    unfold tokens marks
    rw [String.toList_append]
    rfl
  rw [tokens_joined ha.endsOutside hb.endsOutside rfl hmiddle rfl rfl]
  exact read_conjunction (closed_tokens ha) (closed_tokens hb)

theorem read_or (ha : Balanced true a) (hb : Balanced true b) :
    read (tokens ("(" ++ a ++ ") OR (" ++ b ++ ")")) = .or (read (tokens a)) (read (tokens b)) := by
  have hmiddle : ∀ s, tokens (") OR (" ++ s) =
      .closing :: ([.word "OR".toList, .opening] ++ tokens s) := by
    intro s
    unfold tokens marks
    rw [String.toList_append]
    rfl
  rw [tokens_joined ha.endsOutside hb.endsOutside rfl hmiddle rfl rfl]
  exact read_disjunction (closed_tokens ha) (closed_tokens hb)

theorem read_and_isNotTrue (ha : Balanced true a) (hb : Balanced true b) :
    read (tokens ("(" ++ a ++ ") AND ((" ++ b ++ ") IS NOT TRUE)")) =
      .and (read (tokens a)) (.isNotTrue (read (tokens b))) := by
  have hmiddle : ∀ s, tokens (") AND ((" ++ s) =
      .closing :: ([.word "AND".toList, .opening, .opening] ++ tokens s) := by
    intro s
    unfold tokens marks
    rw [String.toList_append]
    rfl
  have hlast : tokens ") IS NOT TRUE)" = .closing :: (isNotTrueTokens ++ [.closing]) := by
    decide
  -- the negated operand has parentheses of its own, in which it is a whole condition
  have hinner := closed_isNotTrue (closed_tokens hb)
  have hread := read_conjunction (closed_tokens ha) hinner
  rw [read_isNotTrue (closed_tokens hb)] at hread
  rw [tokens_joined ha.endsOutside hb.endsOutside rfl hmiddle rfl hlast, ← hread]
  simp

/-- An operator in a literal is no operator, and `OR` binds least. -/
example : read (tokens "a OR (b AND 'c OR d') IS NOT TRUE") =
    .or (.atom [.word ['a']])
      (.isNotTrue (.and (.atom [.word ['b']]) (.atom [.quoted "c OR d".toList]))) := by
  decide +kernel

end CqlToSql.Sql
