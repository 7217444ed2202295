/-
  CqlToSql.Proofs.Term.Agreement
  ──────────────────────────────
  **Plain strings, masks and patterns agree on what is escaped.**  A term is
  looked at in three ways:

      plain        — its text, if it stands for one text alone
      hasWildcard  — whether it masks part of a field
      like         — its pattern, which has masks of its own

  Main statement: a term has a plain string just when no mask and no anchor in
  it is unescaped and its last backslash has something to escape.  That string,
  taken out of its literal, is what the masks of the pattern spell, which then
  are all literal.  A term has a wildcard just when its pattern has a mask that
  is not literal.
-/
import CqlToSql.Proofs.Term.Plain

namespace CqlToSql.Term

open CqlToSql.Text
open CqlToSql.Sql

variable {c : Char} {cs : List Char} {term body : String}

/-! ## §1. Plain strings. -/

/-- Only literal pieces have a plain text. -/
theorem exists_plainPieces_iff (term : String) (ps : List Piece) :
    (∃ text, plainPieces term ps = .ok text) ↔ ∀ p ∈ ps, ∃ c, p = .literal c := by
  induction ps with
  | nil => simp [plainPieces]
  | cons p ps ih =>
    rw [List.forall_mem_cons, ← ih]
    cases p with
    | literal c =>
      rw [plainPieces]
      cases plainPieces term ps <;> simp [Piece.plain]
    | _ => simp [plainPieces, Piece.plain]

/-- The pieces of a term are literal just when it is plain. -/
theorem forall_literal_iff_isPlain (cs : List Char) :
    (∀ p ∈ pieces cs, ∃ c, p = .literal c) ↔ IsPlain cs := by
  fun_induction pieces cs with
  | case1 => exact iff_of_true (by simp) ⟨not_hasUnescaped_nil, rfl⟩
  | case2 => exact iff_of_false (by simp) fun h => absurd h.2 (by decide)
  | case3 c cs ih =>
    rw [List.forall_mem_cons, isPlain_pair, ih]
    simp
  | case4 c cs hend hpair ih =>
    -- a character without a backslash is literal only as itself
    have hself : (∃ d, Piece.ofChar c = .literal d) ↔ Piece.ofChar c = .literal c := by
      unfold Piece.ofChar
      grind
    rw [List.forall_mem_cons, isPlain_cons (ne_backslash_of_cases hend hpair), ih, hself,
      Piece.ofChar_eq_literal_iff c cs]

theorem exists_plain_iff_isPlain (term : String) :
    (∃ body, plain term = .ok body) ↔ IsPlain term.toList := by
  rw [← forall_literal_iff_isPlain, ← exists_plainPieces_iff term, plain]
  cases plainPieces term (pieces term.toList) <;> simp [Except.map]

/-- Outside its literal the plain string of a term is the text of the term. -/
theorem undouble_of_plain (h : plain term = .ok body) :
    undouble body.toList = some (unescape term.toList) := by
  have hplain : IsPlain term.toList := (exists_plain_iff_isPlain term).1 ⟨body, h⟩
  rw [plain_of_isPlain hplain] at h
  cases h
  rw [String.toList_ofList, undouble_plain]

/-- The masks of a plain term spell its text. -/
theorem termMasks_of_isPlain (h : IsPlain cs) : termMasks cs = (unescape cs).map .literal := by
  rw [← map_mask_pieces, (isPlain_iff cs).1 h, List.map_map]
  rfl

/-! ## §2. Wildcards. -/

/-- A mask of a term: any sequence, or any one character. -/
def IsMask (c : Char) (_after : List Char) : Prop := c = '*' ∨ c = '?'

theorem not_isMask_backslash (after : List Char) : ¬ IsMask '\\' after := by
  simp [IsMask]

theorem isWildcard_ofChar_iff (c : Char) (after : List Char) :
    (Piece.ofChar c).isWildcard = true ↔ IsMask c after := by
  unfold Piece.ofChar IsMask
  by_cases hstar : c = '*'
  · simp [hstar, Piece.isWildcard]
  · by_cases hone : c = '?'
    · simp [hone, Piece.isWildcard]
    · by_cases hanchor : c = '^'
      · simp [hanchor, Piece.isWildcard]
      · simp [hstar, hone, hanchor, Piece.isWildcard]

/-- A wildcard is a mask that is not escaped. -/
theorem any_isWildcard_iff (cs : List Char) :
    (pieces cs).any Piece.isWildcard = true ↔ HasUnescaped IsMask cs := by
  fun_induction pieces cs with
  | case1 => simp [not_hasUnescaped_nil]
  | case2 => simp [Piece.isWildcard, not_hasUnescaped_backslash not_isMask_backslash]
  | case3 c cs ih =>
    rw [hasUnescaped_pair not_isMask_backslash, ← ih]
    simp [Piece.isWildcard]
  | case4 c cs hend hpair ih =>
    rw [hasUnescaped_cons (ne_backslash_of_cases hend hpair), ← ih, List.any_cons, Bool.or_eq_true,
      isWildcard_ofChar_iff c cs]

theorem Piece.isWildcard_iff_mask (p : Piece) :
    p.isWildcard = true ↔ p.mask = .anySequence ∨ p.mask = .anyOne := by
  cases p <;> simp [Piece.isWildcard, Piece.mask]

/-- A wildcard of the term is a mask of its pattern. -/
theorem hasWildcard_iff_mem_termMasks (term : String) :
    hasWildcard term = true ↔
      .anySequence ∈ termMasks term.toList ∨ .anyOne ∈ termMasks term.toList := by
  rw [hasWildcard, List.any_eq_true, ← map_mask_pieces, List.mem_map, List.mem_map]
  constructor
  · rintro ⟨p, hp, hwildcard⟩
    rcases p.isWildcard_iff_mask.1 hwildcard with hmask | hmask
    · exact .inl ⟨p, hp, hmask⟩
    · exact .inr ⟨p, hp, hmask⟩
  · rintro (⟨p, hp, hmask⟩ | ⟨p, hp, hmask⟩)
    · exact ⟨p, hp, p.isWildcard_iff_mask.2 (.inl hmask)⟩
    · exact ⟨p, hp, p.isWildcard_iff_mask.2 (.inr hmask)⟩

/-! ## §3. The three of them. -/

/-- **The plain string and the wildcards of a term agree with its pattern.**  The
term has a plain string just when it is plain.  The pattern can be read, and if
there is a plain string, that is the text of the term, of which the masks of the
pattern are the characters.  The term has a wildcard just when some mask of it is
not escaped, and then one of the masks of the pattern is not literal. -/
theorem plain_and_wildcards_agree_with_like (term : String) :
    ((∃ body, plain term = .ok body) ↔ IsPlain term.toList) ∧
    ∃ pattern masks, undouble (like term).toList = some pattern ∧
      patternMasks pattern = some masks ∧
      (∀ body, plain term = .ok body → undouble body.toList = some (unescape term.toList) ∧
        masks = (unescape term.toList).map .literal) ∧
      (hasWildcard term = true ↔ .anySequence ∈ masks ∨ .anyOne ∈ masks) ∧
      (hasWildcard term = true ↔ HasUnescaped IsMask term.toList) := by
  obtain ⟨pattern, hbody, hmasks⟩ := exists_undouble_like term
  refine ⟨exists_plain_iff_isPlain term, pattern, termMasks term.toList, hbody, hmasks, ?_,
    hasWildcard_iff_mem_termMasks term, any_isWildcard_iff term.toList⟩
  intro body h
  have hplain : IsPlain term.toList := (exists_plain_iff_isPlain term).1 ⟨body, h⟩
  exact ⟨undouble_of_plain h, termMasks_of_isPlain hplain⟩

/-- Three backslashes before a star escape a backslash and the star, so nothing
is masked; `%` and `_` have a meaning in the pattern alone. -/
theorem plain_and_wildcards_agree_escaped_run :
    plain "\\\\\\*'%_" = .ok "\\*''%_" ∧ undouble "\\*''%_".toList = some "\\*'%_".toList ∧
      hasWildcard "\\\\\\*'%_" = false := by
  have hok : plain "\\\\\\*'%_" = .ok "\\*''%_" := by rfl
  obtain ⟨-, pattern, masks, -, -, hplain, hwildcard, -⟩ :=
    plain_and_wildcards_agree_with_like "\\\\\\*'%_"
  obtain ⟨htext, hmasks⟩ := hplain _ hok
  refine ⟨hok, htext, ?_⟩
  rw [← Bool.not_eq_true, hwildcard, hmasks]
  simp

end CqlToSql.Term
