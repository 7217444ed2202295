/-
  CqlToSql.Proofs.Sql.Like
  ────────────────────────
  **The truth of `LIKE` predicates.**  Such a predicate compares an operand
  with a pattern, and functions may be applied on both sides:

      lower(f_unaccent(operand)) NOT LIKE lower(f_unaccent('pattern'))

  It is evaluated for one value of the operand.  The functions may be any two
  functions from text to text.

  Main statement: an operand with no operator outside parentheses, folded and
  compared with a folded literal, is read as one predicate, and that is true
  just when the folded value matches the folded pattern
  (`evalText_patternMatch`); two of them with `AND` between are read as their
  conjunction (`evalText_patternMatch_and`).
-/
import CqlToSql.Proofs.Condition.Balance
import CqlToSql.Proofs.Term.Pattern

/-! ## §1. Matching can be computed. -/

namespace CqlToSql.Term

/-- Tries the masks on the text, a sequence of any length with each beginning. -/
def coversText : List Mask → List Char → Bool
  | [], text => text.isEmpty
  | .literal _ :: _, [] => false
  | .literal c :: masks, d :: text => c == d && coversText masks text
  | .anyOne :: _, [] => false
  | .anyOne :: masks, _ :: text => coversText masks text
  | .anySequence :: masks, text =>
    (List.range (text.length + 1)).any fun n => coversText masks (text.drop n)

theorem coversText_iff (masks : List Mask) (text : List Char) :
    coversText masks text = true ↔ Covers masks text := by
  induction masks generalizing text with
  | nil =>
    cases text with
    | nil => exact ⟨fun _ => .nil, fun _ => rfl⟩
    | cons d text => exact ⟨fun h => (Bool.false_ne_true h).elim, fun h => nomatch h⟩
  | cons mask masks ih =>
    cases mask with
    | literal c =>
      cases text with
      | nil => exact ⟨fun h => (Bool.false_ne_true h).elim, fun h => nomatch h⟩
      | cons d text =>
        rw [coversText, Bool.and_eq_true, beq_iff_eq, ih]
        constructor
        · rintro ⟨rfl, h⟩
          exact .literal c h
        · intro h
          cases h with
          | literal _ h => exact ⟨rfl, h⟩
    | anyOne =>
      cases text with
      | nil => exact ⟨fun h => (Bool.false_ne_true h).elim, fun h => nomatch h⟩
      | cons d text =>
        rw [coversText, ih]
        constructor
        · intro h
          exact .anyOne d h
        · intro h
          cases h with
          | anyOne _ h => exact h
    | anySequence =>
      rw [coversText, List.any_eq_true]
      constructor
      · -- the sequence takes the first `n` characters
        rintro ⟨n, -, h⟩
        have hcovers := Covers.anySequence (text.take n) ((ih _).1 h)
        rwa [List.take_append_drop] at hcovers
      · intro h
        cases h with
        | anySequence skipped h =>
          refine ⟨skipped.length, ?_, ?_⟩
          · rw [List.mem_range, List.length_append]
            omega
          · rw [List.drop_left]
            exact (ih _).2 h

instance (masks : List Mask) (text : List Char) : Decidable (Covers masks text) :=
  decidable_of_iff _ (coversText_iff masks text)

instance (pattern text : List Char) : Decidable (LikeMatches pattern text) :=
  decidable_of_iff ((patternMasks pattern).any (coversText · text) = true) (by
    rw [likeMatches_iff_covers, Option.any_eq_true]
    simp only [coversText_iff])

end CqlToSql.Term

namespace CqlToSql.Sql

open CqlToSql.Text CqlToSql.Condition CqlToSql.Term

/-! ## §2. Operands. -/

variable {key : Token → Bool} {ts us : List Token} {s : String}

/-- The tokens close what they open, and outside parentheses `key` accepts none
of them. -/
structure Passes (key : Token → Bool) (ts : List Token) : Prop where
  closed : Closed ts
  uncut : cutTop key 0 ts = none

theorem cutTop_append {d e : Nat} (hd : depthAfter d ts = some e) (h : cutTop key d ts = none)
    (us : List Token) :
    cutTop key d (ts ++ us) = (cutTop key e us).map fun (before, rest) => (ts ++ before, rest) := by
  -- `cutTop` counts parentheses as `depthAfter` does, as long as none is closed too often
  induction ts generalizing d with
  | nil =>
    cases hd
    simp
  | cons t ts ih =>
    obtain ⟨d', ht, hrest⟩ := Option.bind_eq_some_iff.1 hd
    rw [cutTop] at h
    split at h
    · cases h
    · rename_i hkey
      rw [Token.shift_of_depth? ht, Option.map_eq_none_iff] at h
      rw [List.cons_append, cutTop, if_neg hkey, Token.shift_of_depth? ht, ih hrest h,
        Option.map_map]
      rfl

/-- What is passed over comes before the cut. -/
theorem Passes.cutTop_append (h : Passes key ts) (us : List Token) :
    cutTop key 0 (ts ++ us) = (cutTop key 0 us).map fun (before, rest) => (ts ++ before, rest) :=
  Sql.cutTop_append h.closed h.uncut us

theorem Closed.append (ht : Closed ts) (hu : Closed us) : Closed (ts ++ us) := by
  unfold Closed at ht hu ⊢
  rw [depthAfter_append, ht]
  exact hu

theorem Passes.append (ht : Passes key ts) (hu : Passes key us) : Passes key (ts ++ us) where
  closed := ht.closed.append hu.closed
  uncut := by
    rw [ht.cutTop_append, hu.uncut]
    rfl

/-- The tokens of a function applied to an expression. -/
def callTokens (name : List Char) (ts : List Token) : List Token :=
  .word name :: .opening :: (ts ++ [.closing])

theorem closed_parentheses (h : Closed ts) : Closed (.opening :: (ts ++ [.closing])) := by
  show depthAfter (0 + 1) (ts ++ [.closing]) = some 0
  rw [depthAfter_append, depthAfter_succ h]
  rfl

theorem closed_call {name : List Char} (h : Closed ts) : Closed (callTokens name ts) :=
  closed_parentheses h

theorem passes_call {name : List Char} (h : Closed ts) (ho : key .opening = false)
    (hname : key (.word name) = false) : Passes key (callTokens name ts) where
  closed := closed_call h
  uncut := by
    rw [callTokens, cutTop, if_neg (by simp [hname])]
    show Option.map _ (cutTop key 0 _) = none
    rw [cutTop_parenthesized_last h ho]
    rfl

/-- The words that take a condition apart. -/
def operatorWords : List String := ["or", "and", "not", "like"]

/-- The tokens have no operator outside parentheses. -/
def IsOperand (ts : List Token) : Prop :=
  ∀ word ∈ operatorWords, Passes (Token.isKeyword word) ts

/-- The text can stand in a condition as an operand. -/
structure IsOperandText (s : String) : Prop where
  balanced : Balanced true s
  plain : ∀ word ∈ operatorWords, cutTop (Token.isKeyword word) 0 (tokens s) = none

instance (s : String) : Decidable (IsOperandText s) :=
  decidable_of_iff
    (Balanced true s ∧ ∀ word ∈ operatorWords, cutTop (Token.isKeyword word) 0 (tokens s) = none)
    ⟨fun h => ⟨h.1, h.2⟩, fun h => ⟨h.balanced, h.plain⟩⟩

theorem IsOperandText.isOperand (h : IsOperandText s) : IsOperand (tokens s) := fun word hword =>
  ⟨closed_tokens h.balanced, h.plain word hword⟩

theorem isOperand_quoted (text : List Char) : IsOperand [.quoted text] := fun _ _ =>
  ⟨rfl, rfl⟩

/-- An applied function is an operand, whatever operators stand in its argument. -/
theorem isOperand_call {name : List Char} (h : Closed ts)
    (hname : operatorWords.all (fun word => !Token.isKeyword word (.word name)) = true) :
    IsOperand (callTokens name ts) := by
  intro word hword
  have hother := List.all_eq_true.1 hname word hword
  rw [Bool.not_eq_true'] at hother
  exact passes_call h rfl hother

/-! ## §3. The values of expressions. -/

/-- The functions that texts are folded with. -/
structure TextFunctions where
  lower : List Char → List Char
  unaccent : List Char → List Char

/-- The function of that name. -/
def TextFunctions.named? (fns : TextFunctions) (name : List Char) :
    Option (List Char → List Char) :=
  if name.map asciiLower = "lower".toList then some fns.lower
  else if name.map asciiLower = "f_unaccent".toList then some fns.unaccent
  else none

/-- The name of a function and what it is applied to. -/
def functionCall? : List Token → Option (List Char × List Token)
  | .word name :: rest => (parenthesized? rest).map fun inner => (name, inner)
  | _ => none

theorem functionCall?_length {name : List Char} {inner : List Token}
    (h : functionCall? ts = some (name, inner)) : inner.length < ts.length := by
  unfold functionCall? at h
  split at h
  · obtain ⟨found, hfound, hpair⟩ := Option.map_eq_some_iff.1 h
    cases hpair
    have hlen := parenthesized?_length hfound
    simp only [List.length_cons]
    omega
  · cases h

/-- The value of an expression: that which `base` gives it, or else a function
applied to the value of an expression. -/
def textValue? (fns : TextFunctions) (base : List Token → Option (List Char)) (ts : List Token) :
    Option (List Char) :=
  match base ts with
  | some value => some value
  | none =>
    match _h : functionCall? ts with
    | some (name, inner) => (fns.named? name).bind fun f => (textValue? fns base inner).map f
    | none => none
termination_by ts.length
decreasing_by exact functionCall?_length _h

/-- The operand has the given value. -/
def operandValue (operand : List Token) (value : List Char) (ts : List Token) :
    Option (List Char) :=
  if ts = operand then some value else none

/-- A literal has its text as its value. -/
def literalValue : List Token → Option (List Char)
  | [.quoted text] => some text
  | _ => none

variable {fns : TextFunctions} {base : List Token → Option (List Char)} {name value : List Char}
  {f : List Char → List Char}

theorem textValue?_of_base (h : base ts = some value) : textValue? fns base ts = some value := by
  rw [textValue?, h]

theorem textValue?_call (hbase : base (callTokens name ts) = none)
    (hname : fns.named? name = some f) (hts : Closed ts) :
    textValue? fns base (callTokens name ts) = (textValue? fns base ts).map f := by
  have hcall : functionCall? (callTokens name ts) = some (name, ts) := by
    rw [callTokens, functionCall?, parenthesized?_of_closed hts]
    rfl
  rw [textValue?, hbase]
  dsimp only
  split
  · rename_i found inner hfound
    rw [hcall] at hfound
    cases hfound
    rw [hname]
    rfl
  · rename_i hnone
    rw [hcall] at hnone
    cases hnone

/-! ## §4. Folded expressions. -/

/-- The tokens of an expression that a function may be applied to. -/
def callIf (wanted : Bool) (name : List Char) (ts : List Token) : List Token :=
  if wanted then callTokens name ts else ts

/-- The tokens of a folded expression. -/
def foldTokens (folding : Folding) (ts : List Token) : List Token :=
  callIf folding.lower "lower".toList (callIf folding.unaccent "f_unaccent".toList ts)

/-- The text that a function may be applied to. -/
def applyIf (wanted : Bool) (f : List Char → List Char) (text : List Char) : List Char :=
  if wanted then f text else text

/-- The folded text. -/
def foldText (fns : TextFunctions) (folding : Folding) (text : List Char) : List Char :=
  applyIf folding.lower fns.lower (applyIf folding.unaccent fns.unaccent text)

variable {wanted : Bool} {folding : Folding}

theorem closed_callIf (h : Closed ts) : Closed (callIf wanted name ts) := by
  unfold callIf
  split
  · exact closed_call h
  · exact h

theorem length_le_callIf : ts.length ≤ (callIf wanted name ts).length := by
  unfold callIf
  split
  · simp only [callTokens, List.length_cons, List.length_append, List.length_nil]
    omega
  · exact Nat.le_refl _

theorem textValue?_callIf (hbase : base (callTokens name ts) = none)
    (hname : fns.named? name = some f) (hts : Closed ts)
    (hvalue : textValue? fns base ts = some value) :
    textValue? fns base (callIf wanted name ts) = some (applyIf wanted f value) := by
  unfold callIf applyIf
  split
  · rw [textValue?_call hbase hname hts, hvalue]
    rfl
  · exact hvalue

theorem IsOperand.closed (h : IsOperand ts) : Closed ts := (h "or" (by decide)).closed

theorem IsOperand.callIf (h : IsOperand ts)
    (hname : operatorWords.all (fun word => !Token.isKeyword word (.word name)) = true) :
    IsOperand (callIf wanted name ts) := by
  unfold Sql.callIf
  split
  · exact isOperand_call h.closed hname
  · exact h

theorem IsOperand.fold (h : IsOperand ts) : IsOperand (foldTokens folding ts) :=
  (h.callIf (by decide)).callIf (by decide)

/-- A folded expression has the folded value, if `base` gives one to the
expression alone. -/
theorem textValue?_foldTokens (hts : Closed ts) (hbase : base ts = some value)
    (hcall : ∀ name us, ts.length ≤ us.length → base (callTokens name us) = none) :
    textValue? fns base (foldTokens folding ts) = some (foldText fns folding value) := by
  have hunaccent : textValue? fns base (callIf folding.unaccent "f_unaccent".toList ts)
      = some (applyIf folding.unaccent fns.unaccent value) :=
    textValue?_callIf (hcall _ ts (Nat.le_refl _)) rfl hts (textValue?_of_base hbase)
  exact textValue?_callIf (hcall _ _ length_le_callIf) rfl (closed_callIf hts) hunaccent

theorem tokens_call {name : String} (hname : IsName name) (hs : Balanced true s) :
    tokens (name ++ "(" ++ s ++ ")") = callTokens name.toList (tokens s) := by
  have hassoc : name ++ "(" ++ s ++ ")" = name ++ ("(" ++ (s ++ ")")) := by
    simp only [String.append_assoc]
  have hopening : EndsName ("(" ++ (s ++ ")")) := EndsName.append (by decide) _
  rw [hassoc, tokens_word_append hname hopening, tokens_opening,
    tokens_append_closing hs.endsOutside rfl]
  rfl

theorem tokens_folded (folding : Folding) (hs : Balanced true s) :
    tokens (folding.apply s) = foldTokens folding (tokens s) := by
  have hunaccented : tokens (unaccented s) = callTokens "f_unaccent".toList (tokens s) := by
    have htext : unaccented s = "f_unaccent" ++ "(" ++ s ++ ")" := by simp [unaccented]
    rw [htext]
    exact tokens_call (by decide) hs
  have hlowered : ∀ {e : String}, Balanced true e →
      tokens (lowered e) = callTokens "lower".toList (tokens e) := by
    intro e he
    have htext : lowered e = "lower" ++ "(" ++ e ++ ")" := by simp [lowered]
    rw [htext]
    exact tokens_call (by decide) he
  obtain ⟨lower, unaccent⟩ := folding
  cases lower with
  | false =>
    cases unaccent with
    | false => rfl
    | true => exact hunaccented
  | true =>
    cases unaccent with
    | false => exact hlowered hs
    | true =>
      show tokens (lowered (unaccented s)) = callTokens _ (callTokens _ _)
      rw [hlowered hs.unaccented, hunaccented]

/-! ## §5. Predicates. -/

/-- The operands of a `LIKE` predicate, and whether it is negated. -/
def likeTest? (ts : List Token) : Option (Bool × List Token × List Token) :=
  match cutTop (Token.isKeyword "not") 0 ts with
  | some (left, like :: right) => if like.isKeyword "like" then some (true, left, right) else none
  | some (_, []) => none
  | none => (cutTop (Token.isKeyword "like") 0 ts).map fun (left, right) => (false, left, right)

/-- The truth of a `LIKE` predicate between the operand, which has the given
value, and a literal. -/
def likePredicate (fns : TextFunctions) (operand : List Token) (value : List Char) : Assignment :=
  fun ts =>
    match likeTest? ts with
    | none => .null
    | some (negated, left, right) =>
      match textValue? fns (operandValue operand value) left, textValue? fns literalValue right with
      | some text, some pattern => .ofBool (decide (LikeMatches pattern text) != negated)
      | _, _ => .null

/-- The tokens of the operator. -/
def likeOperator (negated : Bool) : List Token :=
  if negated then [.word "NOT".toList, .word "LIKE".toList] else [.word "LIKE".toList]

/-- The tokens of a predicate. -/
def likeTokens (negated : Bool) (folding : Folding) (operand : List Token) (pattern : List Char) :
    List Token :=
  foldTokens folding operand ++ (likeOperator negated ++ foldTokens folding [.quoted pattern])

variable {negated : Bool} {operand : List Token} {pattern : List Char}

/-- The operator is found between the operands. -/
theorem likeTest?_likeTokens (h : IsOperand operand) :
    likeTest? (likeTokens negated folding operand pattern)
      = some (negated, foldTokens folding operand, foldTokens folding [.quoted pattern]) := by
  have hleft : IsOperand (foldTokens folding operand) := h.fold
  have hright : IsOperand (foldTokens folding [.quoted pattern]) := (isOperand_quoted pattern).fold
  unfold likeTest? likeTokens
  rw [(hleft "not" (by decide)).cutTop_append]
  cases negated with
  | true =>
    -- the cut is at `NOT`, with nothing of the operator before it
    show some (true, foldTokens folding operand ++ [], foldTokens folding [.quoted pattern]) = _
    rw [List.append_nil]
  | false =>
    -- no `NOT` anywhere, so the second cut counts
    have hlike : Passes (Token.isKeyword "not") (likeOperator false) := ⟨rfl, by decide⟩
    rw [(hlike.append (hright "not" (by decide))).uncut, (hleft "like" (by decide)).cutTop_append]
    show some (false, foldTokens folding operand ++ [], foldTokens folding [.quoted pattern]) = _
    rw [List.append_nil]

/-- A predicate is true when the folded value matches the folded pattern, or
when it is negated and does not. -/
theorem likePredicate_likeTokens (h : IsOperand operand) (value : List Char) :
    likePredicate fns operand value (likeTokens negated folding operand pattern)
      = .ofBool (decide (LikeMatches (foldText fns folding pattern) (foldText fns folding value))
          != negated) := by
  have hoperand : textValue? fns (operandValue operand value) (foldTokens folding operand)
      = some (foldText fns folding value) := by
    refine textValue?_foldTokens h.closed (if_pos rfl) fun name us hlength => if_neg ?_
    -- an applied function is longer than what it is applied to
    intro heq
    have hlonger := congrArg List.length heq
    simp only [callTokens, List.length_cons, List.length_append, List.length_nil] at hlonger
    omega
  have hpattern : textValue? fns literalValue (foldTokens folding [.quoted pattern])
      = some (foldText fns folding pattern) :=
    textValue?_foldTokens rfl rfl fun name us _ => rfl
  unfold likePredicate
  rw [likeTest?_likeTokens h]
  dsimp only
  rw [hoperand, hpattern]

theorem passes_likeTokens (h : IsOperand operand) {word : String} (hword : word ∈ ["or", "and"]) :
    Passes (Token.isKeyword word) (likeTokens negated folding operand pattern) := by
  have hmem : word ∈ operatorWords := by
    simp only [List.mem_cons, List.not_mem_nil, or_false] at hword
    rcases hword with rfl | rfl <;> decide
  have hlike : Passes (Token.isKeyword word) (likeOperator negated) := by
    simp only [List.mem_cons, List.not_mem_nil, or_false] at hword
    rcases hword with rfl | rfl <;> cases negated <;> exact ⟨rfl, by decide⟩
  exact (h.fold word hmem).append (hlike.append ((isOperand_quoted pattern).fold word hmem))

/-! ## §6. Predicates as they are read. -/

theorem inside_append {d : Nat} (h : depthAfter (d + 1) ts = some 0) (hne : us ≠ []) :
    inside d (ts ++ us) = none := by
  induction ts generalizing d with
  | nil => cases h
  | cons t ts ih =>
    obtain ⟨d', ht, hrest⟩ := Option.bind_eq_some_iff.1 h
    rw [List.cons_append, inside]
    split
    · -- the first parenthesis is closed here, but tokens are left
      exact if_neg (by simp [hne])
    · rename_i hstop
      have hshift : d' = t.shift d + 1 := by
        cases t with
        | closing =>
          have hd : d ≠ 0 := fun h => hstop ⟨h, rfl⟩
          simp only [Token.depth?, Nat.add_eq_zero_iff, Nat.succ_ne_self, and_false, if_false,
            Option.some.injEq] at ht
          simp only [Token.shift]
          omega
        | _ =>
          cases ht
          rfl
      rw [hshift] at hrest
      rw [ih hrest]
      rfl

/-- An operand that starts with a parenthesis closes it before what follows. -/
theorem parenthesized?_append (h : Closed ts) (hne : us ≠ []) (hus : us.head? ≠ some .opening) :
    parenthesized? (ts ++ us) = none := by
  cases ts with
  | nil =>
    rw [List.nil_append]
    unfold parenthesized?
    split
    · exact absurd rfl hus
    · rfl
  | cons t ts =>
    cases t with
    | opening => exact inside_append h hne
    | _ => rfl

theorem beforeIsNotTrue?_likeTokens :
    beforeIsNotTrue? (likeTokens negated folding operand pattern) = none := by
  have hcall : ∀ (front us : List Token) (name : List Char),
      beforeIsNotTrue? (front ++ callTokens name us) = none := by
    intro front us name
    have hlast : front ++ callTokens name us
        = (front ++ .word name :: .opening :: us) ++ [.closing] := by
      simp [callTokens]
    rw [hlast]
    exact beforeIsNotTrue?_last rfl _
  -- a predicate ends with a parenthesis or with a literal, and not with `true`
  unfold likeTokens
  rw [← List.append_assoc]
  unfold foldTokens callIf
  split
  · exact hcall _ _ _
  · split
    · exact hcall _ _ _
    · exact beforeIsNotTrue?_last rfl _

/-- The whole is one predicate. -/
theorem read_likeTokens (h : IsOperand operand) :
    read (likeTokens negated folding operand pattern)
      = .atom (likeTokens negated folding operand pattern) := by
  refine read_of_atom (passes_likeTokens h (by decide)).uncut (passes_likeTokens h (by decide)).uncut
    beforeIsNotTrue?_likeTokens (parenthesized?_append h.fold.closed ?_ ?_)
  · cases negated <;> simp [likeOperator]
  · cases negated <;> simp [likeOperator]

/-- Two conditions with `AND` between them are read as their conjunction. -/
theorem read_and_of_passes {op : Token} {first second : List Token}
    (hop : op.isKeyword "and" = true) (hother : op.isKeyword "or" = false)
    (hfirst : ∀ word ∈ ["or", "and"], Passes (Token.isKeyword word) first)
    (hsecond : Passes (Token.isKeyword "or") second) :
    read (first ++ op :: second) = .and (read first) (read second) := by
  have hshift : op.shift 0 = 0 := by
    cases op <;> simp_all [Token.isKeyword, Token.shift]
  have hor : cutTop (Token.isKeyword "or") 0 (first ++ op :: second) = none := by
    rw [(hfirst "or" (by decide)).cutTop_append, cutTop, if_neg (by simp [hother]), hshift,
      hsecond.uncut]
    rfl
  have hand : cutTop (Token.isKeyword "and") 0 (first ++ op :: second) = some (first, second) := by
    rw [(hfirst "and" (by decide)).cutTop_append, cutTop, if_pos ⟨rfl, hop⟩]
    show some (first ++ [], second) = _
    rw [List.append_nil]
  exact read_of_and hor hand

/-! ## §7. The truth of matches. -/

variable {body : String}

/-- What stands for a text can be written between quotes. -/
theorem isBody_of_undouble {cs text : List Char} (h : undouble cs = some text) : IsBody cs := by
  fun_induction undouble cs generalizing text with
  | case1 => exact .nil
  | case2 cs ih =>
    obtain ⟨rest, hrest, -⟩ := Option.map_eq_some_iff.1 h
    exact .quotes (ih hrest)
  | case3 => cases h
  | case4 c cs _ hquote ih =>
    obtain ⟨rest, hrest, -⟩ := Option.map_eq_some_iff.1 h
    exact .char hquote (ih hrest)

theorem balanced_literal_of_undouble (h : undouble body.toList = some pattern) :
    Balanced true (literal body) :=
  Balanced.literal (isBody_of_undouble h).balancedInside

theorem tokens_patternMatch (hs : Balanced true s) (hbody : undouble body.toList = some pattern) :
    tokens (patternMatch negated folding s (literal body))
      = likeTokens negated folding (tokens s) pattern := by
  have hright : tokens (folding.apply (literal body)) = foldTokens folding [.quoted pattern] := by
    rw [tokens_folded folding (balanced_literal_of_undouble hbody), tokens_literal hbody]
  have houtside : EndsOutside (folding.apply s) := (hs.folded folding).endsOutside
  unfold patternMatch likeTokens
  rw [String.append_assoc, ← tokens_folded folding hs, ← hright]
  cases negated with
  | true =>
    show tokens (folding.apply s ++ (" NOT LIKE " ++ _)) = _
    rw [tokens_append houtside (EndsName.append (by decide) _), tokens_connector_append (by decide)]
    rfl
  | false =>
    show tokens (folding.apply s ++ (" LIKE " ++ _)) = _
    rw [tokens_append houtside (EndsName.append (by decide) _), tokens_connector_append (by decide)]
    rfl

/-- A match is true just when the folded value matches the folded pattern; a
negated one, when it does not. -/
theorem evalText_patternMatch (hs : IsOperandText s) (hbody : undouble body.toList = some pattern)
    (value : List Char) :
    evalText (likePredicate fns (tokens s) value) (patternMatch negated folding s (literal body))
      = .ofBool (decide (LikeMatches (foldText fns folding pattern) (foldText fns folding value))
          != negated) := by
  rw [evalText, tokens_patternMatch hs.balanced hbody, read_likeTokens hs.isOperand]
  exact likePredicate_likeTokens hs.isOperand value

theorem tokens_conjunction {a : String} (ha : EndsOutside a) (b : String) :
    tokens (a ++ " AND " ++ b) = tokens a ++ .word "AND".toList :: tokens b := by
  rw [String.append_assoc, tokens_append ha (EndsName.append (by decide) _),
    tokens_connector_append (by decide)]
  rfl

/-- Two matches with `AND` between them are true when both are. -/
theorem evalText_patternMatch_and (hs : IsOperandText s)
    (hbody : undouble body.toList = some pattern) (v : Assignment) (first second : Folding) :
    evalText v (patternMatch negated first s (literal body) ++ " AND "
        ++ patternMatch negated second s (literal body))
      = (evalText v (patternMatch negated first s (literal body))).and
          (evalText v (patternMatch negated second s (literal body))) := by
  have hbalanced : Balanced true (patternMatch negated first s (literal body)) :=
    balanced_patternMatch negated first hs.balanced (balanced_literal_of_undouble hbody)
  unfold evalText
  rw [tokens_conjunction hbalanced.endsOutside, tokens_patternMatch hs.balanced hbody,
    tokens_patternMatch hs.balanced hbody,
    read_and_of_passes (by decide) (by decide)
      (fun word hword => passes_likeTokens hs.isOperand hword)
      (passes_likeTokens hs.isOperand (by decide))]
  rfl

end CqlToSql.Sql
