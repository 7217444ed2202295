/-
  CqlToSql.Proofs.Condition.TypedTerm
  ───────────────────────────────────
  **The term of a typed comparison.**  Behind the operator stands one of

      term                         — a numeric constant, in a number comparison
      literal (Term.like term)     — everything else

  The literal of an ordering is read as it stands, so the backslashes that a
  pattern needs are part of the text the field is compared with; and a
  constant may have the digits of any script.  Both statements say exactly
  for which terms this makes no difference.
-/
import CqlToSql.Proofs.Condition.Outcome
import CqlToSql.Proofs.Term.Plain
import CqlToSql.Proofs.Text.Numeric

namespace CqlToSql.Condition

open CqlToSql.Text
open CqlToSql.Sql

variable {c : Clause} {m : Matching}

/-! ## §1. The two sides of the operator. -/

/-- The left side of a typed comparison. -/
def typedField (m : Matching) (f : CqlToSql.Field) : String :=
  match m.format with
  | .number => "(" ++ f.text ++ ")::numeric"
  | .string => f.text

/-- The right side of a typed comparison. -/
def typedTerm (m : Matching) (term : String) : String :=
  if m.format = .number ∧ isNumeric term = true then term else literal (Term.like term)

theorem result_typed_eq (term operator : String) (f : CqlToSql.Field) (m : Matching)
    (ix : FieldIndexes) :
    (typed term operator f m ix).result
      = .ok (typedField m f ++ " " ++ operator ++ typedTerm m term) := by
  rw [result_typed]
  unfold typedField typedTerm
  cases m.format with
  | string => rfl
  | number =>
    simp only [true_and]
    split <;> simp [← String.toList_inj]

theorem count_quote_literal (c : Char) :
    (Term.Piece.literal c).like.count '\'' = 2 * [c].count '\'' := by
  by_cases hquote : c = '\''
  · subst hquote
    decide
  · rw [Term.Piece.like, Term.doubleQuote, if_neg hquote]
    split <;> simp [hquote]

theorem count_quote_ofChar (c : Char) :
    (Term.Piece.ofChar c).like.count '\'' = 2 * [c].count '\'' := by
  unfold Term.Piece.ofChar
  split
  · rename_i hstar
    subst hstar
    decide
  · split
    · rename_i hone
      subst hone
      decide
    · split
      · rename_i hanchor
        subst hanchor
        decide
      · exact count_quote_literal c

/-- Every quote of a term is doubled in its pattern. -/
theorem count_quote_pieces (cs : List Char) :
    ((Term.pieces cs).flatMap Term.Piece.like).count '\'' = 2 * cs.count '\'' := by
  fun_induction Term.pieces cs with
  | case1 => rfl
  | case2 => decide
  | case3 c cs ih =>
    -- the backslash of an escape is no quote
    rw [List.flatMap_cons, List.count_append, ih, count_quote_literal]
    grind
  | case4 c cs hend hpair ih =>
    rw [List.flatMap_cons, List.count_append, ih, count_quote_ofChar]
    grind

theorem literal_like_ne (term : String) : literal (Term.like term) ≠ term := by
  intro hsame
  -- the literal has two quotes more than twice those of the term
  have hcount := congrArg (fun s => s.toList.count '\'') hsame
  simp [literal, Term.like, count_quote_pieces] at hcount
  omega

/-- A term stands without quotes just when it is a number to be compared as one. -/
theorem typedTerm_eq_self_iff (m : Matching) (term : String) :
    typedTerm m term = term ↔ m.format = .number ∧ isNumeric term = true := by
  unfold typedTerm
  split
  · rename_i hnumber
    exact iff_of_true rfl hnumber
  · rename_i hnumber
    exact iff_of_false (literal_like_ne term) hnumber

/-! ## §2. Orderings of texts. -/

/-- The four orderings are operators of typed comparisons, with any modifiers. -/
theorem strategy?_ordering {relation : String} (h : relation ∈ ["<", ">", "<=", ">="])
    (m : Matching) : strategy? relation m = some (.typed relation) := by
  unfold strategy?
  rw [if_pos h]
  simp only [List.mem_cons, List.not_mem_nil, or_false] at h
  rcases h with rfl | rfl | rfl | rfl <;> simp

/-- **The literal of an ordering, outside the literal.**  An ordering of texts
succeeds, with a literal behind its operator.  Where the term stands for one
text, the literal is that text with the escapes of a pattern; so it is the
text itself, and its body the plain string of the term, just when no character
of the text needs an escape. -/
theorem ordering_literal_iff (hm : Matching.ofModifiers c.relation.modifiers = .ok m)
    (hordering : lowerCase c.relation.base ∈ ["<", ">", "<=", ">="])
    (hformat : m.format = .string) (hterm : Term.IsPlain c.term.toList)
    (f : CqlToSql.Field) (ix : FieldIndexes) :
    ∃ body plain,
      (comparison c f ix).result
        = .ok (f.text ++ " " ++ lowerCase c.relation.base ++ literal body) ∧
      Term.plain c.term = .ok plain ∧
      undouble plain.toList = some (Term.unescape c.term.toList) ∧
      undouble body.toList = some ((Term.unescape c.term.toList).flatMap Term.escapeLike) ∧
      (undouble body.toList = some (Term.unescape c.term.toList) ↔
        ∀ x ∈ Term.unescape c.term.toList, Term.isLikeSpecial x = false) ∧
      (body = plain ↔ ∀ x ∈ Term.unescape c.term.toList, Term.isLikeSpecial x = false) := by
  refine ⟨Term.like c.term, _, ?_, Term.plain_of_isPlain hterm, ?_,
    Term.undouble_like_of_isPlain hterm, ?_, Term.like_eq_plain_iff hterm⟩
  · rw [result_comparison hm (strategy?_ordering hordering m)]
    show (typed c.term (lowerCase c.relation.base) f m ix).result = _
    rw [result_typed, hformat]
  · rw [String.toList_ofList, Term.undouble_plain]
  · rw [Term.undouble_like_of_isPlain hterm, Option.some.injEq,
      Term.flatMap_escapeLike_eq_self_iff]

/-- In the term `it\'s \^5` the escapes are taken back and the quote is doubled;
the literal is the text `it's ^5`. -/
theorem ordering_literal_escaped :
    Term.IsPlain "it\\'s \\^5".toList ∧ ∃ body,
      (comparison ⟨"f", ⟨">=", []⟩, "it\\'s \\^5"⟩ (CqlToSql.Field.at "t.jsonb" "f") {}).result
        = .ok ("t.jsonb->>'f' >=" ++ literal body) ∧
      Term.plain "it\\'s \\^5" = .ok body ∧ undouble body.toList = some "it's ^5".toList := by
  have hterm : Term.IsPlain "it\\'s \\^5".toList := (Term.isPlain_iff _).2 (by decide)
  have hordering : lowerCase ">=" ∈ ["<", ">", "<=", ">="] := by decide +kernel
  have hnone : ∀ x ∈ Term.unescape "it\\'s \\^5".toList, Term.isLikeSpecial x = false := by
    intro x hx
    have hall : (Term.unescape "it\\'s \\^5".toList).all (!Term.isLikeSpecial ·) = true := by decide
    simpa using List.all_eq_true.1 hall x hx
  obtain ⟨body, plain, hsql, hplain, -, -, hundouble, hbody⟩ :=
    ordering_literal_iff (c := ⟨"f", ⟨">=", []⟩, "it\\'s \\^5"⟩) rfl hordering rfl hterm
      (CqlToSql.Field.at "t.jsonb" "f") {}
  rw [hbody.2 hnone] at hsql hundouble
  exact ⟨hterm, plain, hsql, hplain, hundouble.2 hnone⟩

/-- An ordering with the term `a_b` compares with the text `a\_b`. -/
theorem ordering_literal_gains_backslash :
    Term.IsPlain "a_b".toList ∧ Term.unescape "a_b".toList = "a_b".toList ∧
      (comparison ⟨"f", ⟨"<", []⟩, "a_b"⟩ (CqlToSql.Field.at "t.jsonb" "f") {}).result
        = .ok ("t.jsonb->>'f' <" ++ literal "a\\_b") ∧
      Term.plain "a_b" = .ok "a_b" ∧
      undouble "a\\_b".toList = some "a\\_b".toList := by
  refine ⟨(Term.isPlain_iff _).2 (by decide), by decide, ?_, by rfl, by decide⟩
  decide +kernel

/-! ## §3. Numbers. -/

/-- **What stands without quotes.**  The recognised texts are the numeric
constants with digits of any script; they are the ones with the ten digits of
SQL unless a text that is recognised holds another digit.  A typed comparison
writes the term without quotes just when it compares numbers and recognises
the term, and then it writes a constant of SQL just when all digits are among
the ten. -/
theorem unquoted_term_iff (term : String) :
    (isNumeric term = true ↔ IsNumericConstant isDecimalDigit term.toList) ∧
    ((isNumeric term = true ↔ IsNumericConstant Char.isDigit term.toList) ↔
      (isNumeric term = true → ∀ x ∈ term.toList, isDecimalDigit x = true → x.isDigit = true)) ∧
    ∀ operator f m ix, ∃ value,
      (typed term operator f m ix).result = .ok (typedField m f ++ " " ++ operator ++ value) ∧
      (value = term ∨ value = literal (Term.like term)) ∧
      (value = term ↔ m.format = .number ∧ isNumeric term = true) ∧
      (value = term → (IsNumericConstant Char.isDigit term.toList ↔
        ∀ x ∈ term.toList, isDecimalDigit x = true → x.isDigit = true)) := by
  refine ⟨isNumeric_iff, ?_, fun operator f m ix =>
    ⟨typedTerm m term, result_typed_eq term operator f m ix, ?_, typedTerm_eq_self_iff m term, ?_⟩⟩
  · -- over the ten digits a constant is a recognised text without other digits
    rw [isNumericConstant_ascii_iff, ← isNumeric_iff]
    tauto
  · unfold typedTerm
    split
    · exact .inl rfl
    · exact .inr rfl
  · intro hself
    have hnumeric := ((typedTerm_eq_self_iff m term).1 hself).2
    rw [isNumericConstant_ascii_iff, ← isNumeric_iff]
    simp [hnumeric]

/-- A comparison of numbers. -/
def numbers : Matching := { Matching.initial with format := .number }

/-- The constant `-1.5e3` stands without quotes, and `1e` stands in a literal. -/
theorem unquoted_term_signed_power :
    (∃ value, (typed "-1.5e3" "<" (CqlToSql.Field.at "t.jsonb" "n") numbers {}).result
        = .ok ("(t.jsonb->>'n')::numeric" ++ " " ++ "<" ++ value) ∧
      value = "-1.5e3" ∧ IsNumericConstant Char.isDigit "-1.5e3".toList) ∧
    ∃ value, (typed "1e" "<" (CqlToSql.Field.at "t.jsonb" "n") numbers {}).result
        = .ok ("(t.jsonb->>'n')::numeric" ++ " " ++ "<" ++ value) ∧
      value = literal (Term.like "1e") ∧ ¬ IsNumericConstant isDecimalDigit "1e".toList := by
  constructor
  · obtain ⟨-, -, htyped⟩ := unquoted_term_iff "-1.5e3"
    obtain ⟨value, hsql, -, hself, hconstant⟩ :=
      htyped "<" (CqlToSql.Field.at "t.jsonb" "n") numbers {}
    have hvalue : value = "-1.5e3" := hself.2 ⟨rfl, by decide +kernel⟩
    have hall : "-1.5e3".toList.all (fun x => !isDecimalDigit x || x.isDigit) = true := by
      decide +kernel
    refine ⟨value, hsql, hvalue, (hconstant hvalue).2 fun x hx hdigit => ?_⟩
    simpa [hdigit] using List.all_eq_true.1 hall x hx
  · obtain ⟨hnumeric, -, htyped⟩ := unquoted_term_iff "1e"
    obtain ⟨value, hsql, hcases, hself, -⟩ :=
      htyped "<" (CqlToSql.Field.at "t.jsonb" "n") numbers {}
    have hnot : ¬ isNumeric "1e" = true := by decide +kernel
    refine ⟨value, hsql, ?_, fun h => hnot (hnumeric.2 h)⟩
    exact hcases.resolve_left fun h => hnot (hself.1 h).2

/-- An Arabic digit stands without quotes, and is no constant of SQL. -/
theorem unquoted_term_other_digit :
    isNumeric "\u0663" = true ∧ ¬ IsNumericConstant Char.isDigit "\u0663".toList ∧
      (typed "\u0663" "=" (CqlToSql.Field.at "t.jsonb" "n") numbers {}).result
        = .ok "(t.jsonb->>'n')::numeric =\u0663" := by
  have hnumeric : isNumeric "\u0663" = true := by decide +kernel
  refine ⟨hnumeric, fun hconstant => ?_, by decide +kernel⟩
  have hascii := (isNumericConstant_ascii_iff.1 hconstant).2 '\u0663' (by decide)
    (by decide +kernel)
  exact absurd hascii (by decide)

end CqlToSql.Condition
