/-
  CqlToSql.Proofs.Term.Regexp
  ───────────────────────────
  **What the regular expression of a search term means.**  A term is a sequence
  of parts, and each of them has a regular expression:

                            term          expression
      this very character   \c or c       \c or c
      any sequence          *             .*
      any one character     ?             .
      start or end          ^             (^|$)

  Every character with a meaning in regular expressions is written with a
  backslash, except the bar between alternatives.

  Main statement: taken out of its literal, the expression of a term is read as
  the alternatives that the bars of the term separate, each a sequence of parts.
  So it is the sequence of the parts of the term, which matches what the term
  means, just when there is no bar in the term.
-/
import CqlToSql.Proofs.Sql.Regexp
import CqlToSql.Term.Regexp

namespace CqlToSql.Term

open CqlToSql.Text
open CqlToSql.Sql

/-! ## §1. The parts of a term. -/

/-- The start or the end of the text. -/
def anchorPart : Regexp := .group (.either (.sequence [.start]) (.sequence [.finish]))

/-- The part of a character that no backslash stands before. -/
def partOf (c : Char) : Regexp :=
  if c = '*' then .repeated .anyChar 0 none
  else if c = '?' then .anyChar
  else if c = '^' then anchorPart
  else .char c

/-- The parts of a search term. -/
def termParts : List Char → List Regexp
  | [] => []
  | ['\\'] => [.char '\\']
  | '\\' :: c :: cs => .char c :: termParts cs
  | c :: cs => partOf c :: termParts cs

/-- The search term stands for the text between what is before it and what is
after it. -/
inductive TermOccurs : (term before text after : List Char) → Prop where
  | nil {before after : List Char} : TermOccurs [] before [] after
  | loneBackslash {before after : List Char} : TermOccurs ['\\'] before ['\\'] after
  | escaped (c : Char) {term before text after : List Char}
      (h : TermOccurs term (before ++ [c]) text after) :
      TermOccurs ('\\' :: c :: term) before (c :: text) after
  | anySequence (skipped : List Char) {term before text after : List Char}
      (h : TermOccurs term (before ++ skipped) text after) :
      TermOccurs ('*' :: term) before (skipped ++ text) after
  | anyOne (c : Char) {term before text after : List Char}
      (h : TermOccurs term (before ++ [c]) text after) :
      TermOccurs ('?' :: term) before (c :: text) after
  | anchor {term before text after : List Char} (hend : before = [] ∨ text ++ after = [])
      (h : TermOccurs term before text after) : TermOccurs ('^' :: term) before text after
  | plain {c : Char} (hc : c ∉ ['\\', '*', '?', '^']) {term before text after : List Char}
      (h : TermOccurs term (before ++ [c]) text after) :
      TermOccurs (c :: term) before (c :: text) after

variable {c : Char} {cs before text after : List Char} {second : Regexp}

theorem termParts_cons (hc : c ≠ '\\') (cs : List Char) :
    termParts (c :: cs) = partOf c :: termParts cs := by
  rw [termParts]
  · rintro rfl
    exact absurd rfl hc
  · rintro d ds rfl
    exact absurd rfl hc

/-- One character and then the rest. -/
theorem matches_char_andThen :
    (Regexp.andThen (.char c) second).Matches before text after ↔
      ∃ rest, text = c :: rest ∧ second.Matches (before ++ [c]) rest after := by
  constructor
  · rintro ⟨s, t, rfl, rfl, h⟩
    exact ⟨t, rfl, h⟩
  · rintro ⟨rest, rfl, h⟩
    exact ⟨[c], rest, rfl, rfl, h⟩

theorem matches_anyChar_andThen :
    (Regexp.andThen .anyChar second).Matches before text after ↔
      ∃ c rest, text = c :: rest ∧ second.Matches (before ++ [c]) rest after := by
  constructor
  · rintro ⟨s, t, rfl, ⟨c, rfl⟩, h⟩
    exact ⟨c, t, rfl, h⟩
  · rintro ⟨c, rest, rfl, h⟩
    exact ⟨[c], rest, rfl, ⟨c, rfl⟩, h⟩

theorem matches_anySequence_andThen :
    (Regexp.andThen (.repeated .anyChar 0 none) second).Matches before text after ↔
      ∃ skipped rest, text = skipped ++ rest ∧ second.Matches (before ++ skipped) rest after := by
  constructor
  · rintro ⟨s, t, rfl, -, h⟩
    exact ⟨s, t, rfl, h⟩
  · rintro ⟨skipped, rest, rfl, h⟩
    exact ⟨skipped, rest, rfl, Regexp.matches_anySequence _ _ _, h⟩

/-- An anchor takes no text and looks at both ends. -/
theorem matches_anchor_andThen :
    (Regexp.andThen anchorPart second).Matches before text after ↔
      (before = [] ∨ text ++ after = []) ∧ second.Matches before text after := by
  have hanchor : ∀ {s rest : List Char}, anchorPart.Matches before s rest ↔
      s = [] ∧ (before = [] ∨ rest = []) := by
    intro s rest
    simp only [anchorPart, Regexp.sequence, Regexp.Matches]
    grind
  constructor
  · rintro ⟨s, t, rfl, hmatch, h⟩
    obtain ⟨rfl, hend⟩ := hanchor.1 hmatch
    rw [List.append_nil] at h
    exact ⟨hend, h⟩
  · rintro ⟨hend, h⟩
    refine ⟨[], text, rfl, hanchor.2 ⟨rfl, hend⟩, ?_⟩
    rwa [List.append_nil]

/-- The parts of a term match, one after the other, what the term stands for. -/
theorem matches_termParts_iff (cs before text after : List Char) :
    (Regexp.sequence (termParts cs)).Matches before text after ↔
      TermOccurs cs before text after := by
  constructor
  · intro h
    fun_induction termParts cs generalizing before text with
    | case1 =>
      obtain rfl : text = [] := h
      exact .nil
    | case2 =>
      obtain ⟨rest, rfl, hrest⟩ := matches_char_andThen.1 h
      obtain rfl : rest = [] := hrest
      exact .loneBackslash
    | case3 c cs ih =>
      obtain ⟨rest, rfl, hrest⟩ := matches_char_andThen.1 h
      exact .escaped c (ih _ _ hrest)
    | case4 c cs hend hpair ih =>
      have hbackslash := ne_backslash_of_cases hend hpair
      rw [Regexp.sequence] at h
      unfold partOf at h
      split at h
      · rename_i hstar
        subst hstar
        obtain ⟨skipped, rest, rfl, hrest⟩ := matches_anySequence_andThen.1 h
        exact .anySequence skipped (ih _ _ hrest)
      · rename_i hstar
        split at h
        · rename_i hone
          subst hone
          obtain ⟨d, rest, rfl, hrest⟩ := matches_anyChar_andThen.1 h
          exact .anyOne d (ih _ _ hrest)
        · rename_i hone
          split at h
          · rename_i hanchor
            subst hanchor
            obtain ⟨hat, hrest⟩ := matches_anchor_andThen.1 h
            exact .anchor hat (ih _ _ hrest)
          · rename_i hanchor
            obtain ⟨rest, rfl, hrest⟩ := matches_char_andThen.1 h
            exact .plain (by simp [hbackslash, hstar, hone, hanchor]) (ih _ _ hrest)
  · intro h
    induction h with
    | nil => rfl
    | loneBackslash => exact matches_char_andThen.2 ⟨[], rfl, rfl⟩
    | escaped c _ ih => exact matches_char_andThen.2 ⟨_, rfl, ih⟩
    | anySequence skipped _ ih => exact matches_anySequence_andThen.2 ⟨skipped, _, rfl, ih⟩
    | anyOne c _ ih => exact matches_anyChar_andThen.2 ⟨c, _, rfl, ih⟩
    | anchor hat _ ih => exact matches_anchor_andThen.2 ⟨hat, ih⟩
    | plain hc _ ih =>
      simp only [List.mem_cons, List.not_mem_nil, or_false, not_or] at hc
      rw [termParts_cons hc.1, partOf, if_neg hc.2.1, if_neg hc.2.2.1, if_neg hc.2.2.2]
      exact matches_char_andThen.2 ⟨_, rfl, ih⟩

/-! ## §2. The expression of a term, piece by piece. -/

/-- What a piece of a term stands for. -/
def Piece.part : Piece → Regexp
  | .literal c => .char c
  | .anySequence => .repeated .anyChar 0 none
  | .anyOne => .anyChar
  | .anchor => anchorPart
  | .loneBackslash => .char '\\'

/-- The expression of a piece as it is outside a literal. -/
def Piece.expression : Piece → List Char
  | .literal c => if isRegexpSpecial c then ['\\', c] else [c]
  | .anySequence => ['.', '*']
  | .anyOne => ['.']
  | .anchor => ['(', '^', '|', '$', ')']
  | .loneBackslash => ['\\', '\\']

theorem Piece.part_ofChar (c : Char) : (Piece.ofChar c).part = partOf c := by
  unfold Piece.ofChar partOf
  split
  · rfl
  · split
    · rfl
    · split
      · rfl
      · rfl

/-- The pieces of a term are its parts. -/
theorem map_part_pieces (cs : List Char) : (pieces cs).map Piece.part = termParts cs := by
  fun_induction pieces cs with
  | case1 => rfl
  | case2 => rfl
  | case3 c cs ih =>
    rw [List.map_cons, ih, termParts]
    rfl
  | case4 c cs hend hpair ih =>
    rw [List.map_cons, ih, Piece.part_ofChar, termParts_cons (ne_backslash_of_cases hend hpair)]

theorem Piece.undouble_regexp (p : Piece) : undouble p.regexp = some p.expression := by
  cases p with
  | literal c =>
    rw [Piece.regexp, Piece.expression]
    by_cases hs : isRegexpSpecial c = true
    · rw [if_pos hs, if_pos hs]
      -- a quote is not special, so none stands behind the backslash
      have hc : c ≠ '\'' := by
        rintro rfl
        exact absurd hs (by decide)
      rw [undouble_cons (by decide), undouble_cons hc]
      rfl
    · rw [if_neg hs, if_neg hs]
      exact undouble_doubleQuote c
  | _ => rfl

/-- The bar between alternatives, as a part of a term. -/
def bar : Regexp := .char '|'

/-- What is special is neither a letter nor a digit. -/
theorem isEscapable_of_isRegexpSpecial (h : isRegexpSpecial c = true) :
    RegexpReader.isEscapable c = true := by
  have hall : ['.', '+', '(', ')', '\x7b', '\x7d', '[', ']', '$', '?', '*', '^', '\\'].all
      RegexpReader.isEscapable = true := by
    decide
  exact List.all_eq_true.1 hall c (List.contains_iff_mem.1 h)

/-- A character that is written as it is stands for itself, or is the bar. -/
theorem take_of_not_isRegexpSpecial (h : isRegexpSpecial c = false) (r : RegexpReader) :
    r.take c = some { r with current := r.current.addBranches bar [.char c] } := by
  simp only [isRegexpSpecial, List.contains_eq_mem, List.mem_cons, List.not_mem_nil, or_false,
    decide_eq_false_iff_not, not_or] at h
  obtain ⟨hdot, hplus, hopening, hclosing, hbrace, -, hbracket, -, hdollar, hone, hstar, hanchor,
    hbackslash⟩ := h
  unfold RegexpReader.take
  rw [if_neg hdot, if_neg hanchor, if_neg hdollar, if_neg hstar, if_neg hplus, if_neg hone]
  by_cases hbar : c = '|'
  · rw [if_pos hbar, hbar]
    rfl
  · have hpart : r.current.addBranches bar [.char c] = r.current.add (.char c) := by
      simp [OpenGroup.addBranches, bar, hbar]
    rw [if_neg hbar, if_neg hopening, if_neg hclosing,
      if_neg (by simp [hbracket, hbrace, hbackslash]), hpart]
    rfl

/-- One piece is read as its part, or as the start of a branch if it is a bar,
whatever text follows. -/
theorem Piece.read_append (p : Piece) (r : RegexpReader) (rest : List Char) :
    r.read (p.expression ++ rest)
      = RegexpReader.read { r with current := r.current.addBranches bar [p.part] } rest := by
  cases p with
  | literal c =>
    rw [Piece.expression]
    by_cases hs : isRegexpSpecial c = true
    · rw [if_pos hs]
      have hbar : c ≠ '|' := by
        rintro rfl
        exact absurd hs (by decide)
      have hpart : r.current.addBranches bar [.char c] = r.current.add (.char c) := by
        simp [OpenGroup.addBranches, bar, hbar]
      show r.read ('\\' :: c :: rest) = _
      rw [RegexpReader.read_escaped (isEscapable_of_isRegexpSpecial hs), Piece.part, hpart]
      rfl
    · rw [Bool.not_eq_true] at hs
      have hc : c ≠ '\\' := by
        rintro rfl
        exact absurd hs (by decide)
      rw [if_neg (by simp [hs])]
      exact RegexpReader.read_taken hc (take_of_not_isRegexpSpecial hs r) rest
  | anySequence =>
    -- the star repeats the part that the dot has added
    have hstar : (r.add .anyChar).take '*' = some (r.add (.repeated .anyChar 0 none)) := by
      show (r.add .anyChar).repeatLast 0 none = _
      rw [RegexpReader.repeatLast, RegexpReader.add, OpenGroup.repeatLast_add _ rfl]
      rfl
    show r.read ('.' :: '*' :: rest) = _
    rw [RegexpReader.read_taken (by decide) rfl, RegexpReader.read_taken (by decide) hstar]
    rfl
  | anyOne => exact RegexpReader.read_taken (by decide) rfl rest
  | anchor => rfl
  | loneBackslash => exact RegexpReader.read_escaped (by decide) rest

/-- A list of pieces is read as its parts, with a new branch at each bar. -/
theorem read_flatMap_expression (ps : List Piece) (r : RegexpReader) :
    r.read (ps.flatMap Piece.expression)
      = RegexpReader.done { r with current := r.current.addBranches bar (ps.map Piece.part) } := by
  induction ps generalizing r with
  | nil => rfl
  | cons p ps ih =>
    rw [List.flatMap_cons, Piece.read_append, ih]
    rfl

theorem readRegexp_flatMap_expression (ps : List Piece) :
    readRegexp (ps.flatMap Piece.expression)
      = some (.alternatives ((ps.map Piece.part).splitOn bar)) := by
  rw [readRegexp, read_flatMap_expression]
  show some (Regexp.alternatives _) = _
  rw [OpenGroup.branches_addBranches]
  exact congrArg (fun branches => some (Regexp.alternatives branches)) (congrFun List.modifyHead_id _)

/-! ## §3. Bars. -/

theorem bar_mem_termParts_iff (cs : List Char) : bar ∈ termParts cs ↔ '|' ∈ cs := by
  fun_induction termParts cs with
  | case1 => simp
  | case2 => simp [bar]
  | case3 c cs ih =>
    rw [List.mem_cons, List.mem_cons, List.mem_cons, ih]
    simp [bar]
  | case4 c cs hend hpair ih =>
    -- of the parts of single characters only that of the bar is the bar
    have hpart : bar = partOf c ↔ '|' = c := by
      unfold partOf bar anchorPart
      grind
    rw [List.mem_cons, List.mem_cons, ih, hpart]

/-- The alternatives are one sequence just when nothing separates them. -/
theorem alternatives_splitOn_eq_sequence_iff (parts : List Regexp) :
    Regexp.alternatives (parts.splitOn bar) = .sequence parts ↔ bar ∉ parts := by
  rw [List.splitOn_eq_splitOnP]
  constructor
  · intro heq hmem
    obtain ⟨left, right, rfl⟩ := List.append_of_mem hmem
    refine Regexp.alternatives_ne_sequence ?_ _ heq
    rw [List.splitOnP_append_cons (p := (· == bar)) _ _ (beq_self_eq_true bar), List.length_append]
    have hleft := List.length_pos_iff.2 (List.splitOnP_ne_nil (· == bar) left)
    have hright := List.length_pos_iff.2 (List.splitOnP_ne_nil (· == bar) right)
    omega
  · intro hmem
    rw [List.splitOnP_eq_singleton]
    · rfl
    · intro part hpart
      rw [beq_eq_false_iff_ne]
      rintro rfl
      exact hmem hpart

/-! ## §4. The expression of a term. -/

/-- **The regular expression of a search term is read as the alternatives that its
bars separate.**  Its quotes come in pairs, and it is the sequence of the parts of
the term just when the term holds no bar, escaped or not.  That sequence matches a
text between two others just when the term stands for it there. -/
theorem regexp_reads_as_alternatives (term : String) :
    ∃ text, undouble (regexp term).toList = some text ∧
      readRegexp text = some (.alternatives ((termParts term.toList).splitOn bar)) ∧
      (readRegexp text = some (.sequence (termParts term.toList)) ↔ '|' ∉ term.toList) ∧
      ∀ before found after,
        (Regexp.sequence (termParts term.toList)).Matches before found after ↔
          TermOccurs term.toList before found after := by
  have hread : readRegexp ((pieces term.toList).flatMap Piece.expression)
      = some (.alternatives ((termParts term.toList).splitOn bar)) := by
    rw [readRegexp_flatMap_expression, map_part_pieces]
  refine ⟨(pieces term.toList).flatMap Piece.expression, ?_, hread, ?_,
    matches_termParts_iff term.toList⟩
  · rw [regexp, String.toList_ofList]
    exact undouble_flatMap Piece.undouble_regexp _
  · rw [hread, Option.some.injEq, alternatives_splitOn_eq_sequence_iff, bar_mem_termParts_iff]

/-- The expression of `a|b` is written without a backslash and finds the text `b`,
in which the term does not occur. -/
theorem regexp_finds_one_alternative :
    regexp "a|b" = "a|b" ∧
      readRegexp "a|b".toList = some (.either (.sequence [.char 'a']) (.sequence [.char 'b'])) ∧
      (Regexp.either (.sequence [.char 'a']) (.sequence [.char 'b'])).Matches [] ['b'] [] ∧
      ¬ TermOccurs "a|b".toList [] ['b'] [] := by
  refine ⟨by rfl, by decide, .inr ⟨['b'], [], rfl, rfl, rfl⟩, ?_⟩
  rw [← matches_termParts_iff]
  rintro ⟨s, t, htext, hs, -⟩
  obtain rfl : s = ['a'] := hs
  simp at htext

end CqlToSql.Term
