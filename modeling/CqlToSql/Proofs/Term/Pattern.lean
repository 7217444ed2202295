/-
  CqlToSql.Proofs.Term.Pattern
  ────────────────────────────
  **`LIKE` patterns mean what search terms mean.**  A search term and a `LIKE`
  pattern are both made of characters that stand for themselves and of masks,
  but they write them differently:

                            term          pattern
      this very character   \c or c       \c or c
      any sequence          *             %
      any one character     ?             _

  A backslash at the end of a term stands for itself, at the end of a pattern
  it is a mistake.  The pattern of a term stands in a literal, so its quotes
  are doubled as well.

  Main statement: taken out of its literal, the pattern of a term is read as
  the masks of that term, so it matches the same texts.
-/
import CqlToSql.Proofs.Sql.Literal

namespace CqlToSql.Term

open CqlToSql.Sql
open CqlToSql.Text

/-! ## §1. Masks. -/

/-- What a part of a term or of a pattern stands for. -/
inductive Mask where
  | literal (c : Char)
  | anySequence
  | anyOne
  deriving Repr, DecidableEq

/-- A character of a term that no backslash stands before. -/
def Mask.ofTermChar (c : Char) : Mask :=
  if c = '*' then .anySequence else if c = '?' then .anyOne else .literal c

/-- A character of a pattern that no backslash stands before. -/
def Mask.ofPatternChar (c : Char) : Mask :=
  if c = '%' then .anySequence else if c = '_' then .anyOne else .literal c

/-- The masks of a search term. -/
def termMasks : List Char → List Mask
  | [] => []
  | ['\\'] => [.literal '\\']
  | '\\' :: c :: cs => .literal c :: termMasks cs
  | c :: cs => .ofTermChar c :: termMasks cs

/-- The masks of a `LIKE` pattern, unless its last backslash has nothing to
escape. -/
def patternMasks : List Char → Option (List Mask)
  | [] => some []
  | ['\\'] => none
  | '\\' :: c :: cs => (patternMasks cs).map (.literal c :: ·)
  | c :: cs => (patternMasks cs).map (.ofPatternChar c :: ·)

/-! ## §2. Matching.

    The two languages of patterns each have a relation of their own, by the
    characters that they are written with. -/

/-- The text matches the search term. -/
inductive TermMatches : (term text : List Char) → Prop where
  | nil : TermMatches [] []
  | loneBackslash : TermMatches ['\\'] ['\\']
  | escaped (c : Char) {term text : List Char} (h : TermMatches term text) :
      TermMatches ('\\' :: c :: term) (c :: text)
  | anySequence (skipped : List Char) {term text : List Char} (h : TermMatches term text) :
      TermMatches ('*' :: term) (skipped ++ text)
  | anyOne (c : Char) {term text : List Char} (h : TermMatches term text) :
      TermMatches ('?' :: term) (c :: text)
  | plain {c : Char} (hc : c ∉ ['\\', '*', '?']) {term text : List Char}
      (h : TermMatches term text) : TermMatches (c :: term) (c :: text)

/-- The text matches the `LIKE` pattern. -/
inductive LikeMatches : (pattern text : List Char) → Prop where
  | nil : LikeMatches [] []
  | escaped (c : Char) {pattern text : List Char} (h : LikeMatches pattern text) :
      LikeMatches ('\\' :: c :: pattern) (c :: text)
  | anySequence (skipped : List Char) {pattern text : List Char} (h : LikeMatches pattern text) :
      LikeMatches ('%' :: pattern) (skipped ++ text)
  | anyOne (c : Char) {pattern text : List Char} (h : LikeMatches pattern text) :
      LikeMatches ('_' :: pattern) (c :: text)
  | plain {c : Char} (hc : c ∉ ['\\', '%', '_']) {pattern text : List Char}
      (h : LikeMatches pattern text) : LikeMatches (c :: pattern) (c :: text)

/-- The text is what a list of masks stands for. -/
inductive Covers : List Mask → List Char → Prop where
  | nil : Covers [] []
  | literal (c : Char) {masks : List Mask} {text : List Char} (h : Covers masks text) :
      Covers (.literal c :: masks) (c :: text)
  | anySequence (skipped : List Char) {masks : List Mask} {text : List Char}
      (h : Covers masks text) : Covers (.anySequence :: masks) (skipped ++ text)
  | anyOne (c : Char) {masks : List Mask} {text : List Char} (h : Covers masks text) :
      Covers (.anyOne :: masks) (c :: text)

variable {text : List Char}

theorem termMasks_cons {c : Char} (hc : c ≠ '\\') (cs : List Char) :
    termMasks (c :: cs) = .ofTermChar c :: termMasks cs := by
  rw [termMasks]
  · rintro rfl
    exact absurd rfl hc
  · rintro d ds rfl
    exact absurd rfl hc

theorem patternMasks_cons {c : Char} (hc : c ≠ '\\') (cs : List Char) :
    patternMasks (c :: cs) = (patternMasks cs).map (.ofPatternChar c :: ·) := by
  rw [patternMasks]
  · rintro rfl
    exact absurd rfl hc
  · rintro d ds rfl
    exact absurd rfl hc

/-- A search term matches what its masks stand for. -/
theorem termMatches_iff_covers (term : List Char) :
    TermMatches term text ↔ Covers (termMasks term) text := by
  constructor
  · intro h
    induction h with
    | nil => exact .nil
    | loneBackslash => exact .literal '\\' .nil
    | escaped c _ ih => exact .literal c ih
    | anySequence skipped _ ih => exact .anySequence skipped ih
    | anyOne c _ ih => exact .anyOne c ih
    | plain hc _ ih =>
      simp only [List.mem_cons, List.not_mem_nil, or_false, not_or] at hc
      rw [termMasks_cons hc.1, Mask.ofTermChar, if_neg hc.2.1, if_neg hc.2.2]
      exact .literal _ ih
  · intro h
    fun_induction termMasks term generalizing text with
    | case1 =>
      cases h
      exact .nil
    | case2 =>
      cases h with
      | literal _ h =>
        cases h
        exact .loneBackslash
    | case3 c cs ih =>
      cases h with
      | literal _ h => exact .escaped c (ih h)
    | case4 c cs hend hpair ih =>
      have hc := ne_backslash_of_cases hend hpair
      unfold Mask.ofTermChar at h
      split at h
      · rename_i hstar
        subst hstar
        cases h with
        | anySequence skipped h => exact .anySequence skipped (ih h)
      · rename_i hstar
        split at h
        · rename_i hone
          subst hone
          cases h with
          | anyOne d h => exact .anyOne d (ih h)
        · rename_i hone
          cases h with
          | literal _ h => exact .plain (by simp [hc, hstar, hone]) (ih h)

/-- A pattern matches what its masks stand for, and nothing if it has none. -/
theorem likeMatches_iff_covers (pattern : List Char) :
    LikeMatches pattern text ↔ ∃ masks, patternMasks pattern = some masks ∧ Covers masks text := by
  constructor
  · intro h
    induction h with
    | nil => exact ⟨[], rfl, .nil⟩
    | escaped c _ ih =>
      obtain ⟨masks, hm, hcovers⟩ := ih
      exact ⟨_, by rw [patternMasks, hm]; rfl, .literal c hcovers⟩
    | anySequence skipped _ ih =>
      obtain ⟨masks, hm, hcovers⟩ := ih
      exact ⟨_, by rw [patternMasks_cons (by decide), hm]; rfl, .anySequence skipped hcovers⟩
    | anyOne c _ ih =>
      obtain ⟨masks, hm, hcovers⟩ := ih
      exact ⟨_, by rw [patternMasks_cons (by decide), hm]; rfl, .anyOne c hcovers⟩
    | plain hc _ ih =>
      obtain ⟨masks, hm, hcovers⟩ := ih
      simp only [List.mem_cons, List.not_mem_nil, or_false, not_or] at hc
      refine ⟨_, ?_, .literal _ hcovers⟩
      rw [patternMasks_cons hc.1, hm, Mask.ofPatternChar, if_neg hc.2.1, if_neg hc.2.2]
      rfl
  · rintro ⟨masks, hm, h⟩
    fun_induction patternMasks pattern generalizing text masks with
    | case1 =>
      cases hm
      cases h
      exact .nil
    | case2 => cases hm
    | case3 c cs ih =>
      obtain ⟨rest, hrest, rfl⟩ := Option.map_eq_some_iff.1 hm
      cases h with
      | literal _ h => exact .escaped c (ih rest hrest h)
    | case4 c cs hend hpair ih =>
      have hc := ne_backslash_of_cases hend hpair
      obtain ⟨rest, hrest, rfl⟩ := Option.map_eq_some_iff.1 hm
      unfold Mask.ofPatternChar at h
      split at h
      · rename_i hpercent
        subst hpercent
        cases h with
        | anySequence skipped h => exact .anySequence skipped (ih rest hrest h)
      · rename_i hpercent
        split at h
        · rename_i hone
          subst hone
          cases h with
          | anyOne d h => exact .anyOne d (ih rest hrest h)
        · rename_i hone
          cases h with
          | literal _ h => exact .plain (by simp [hc, hpercent, hone]) (ih rest hrest h)

/-! ## §3. The pattern of a term, piece by piece. -/

/-- What a piece of a term stands for.  An anchor has no meaning in a pattern
and stands for itself. -/
def Piece.mask : Piece → Mask
  | .literal c => .literal c
  | .anySequence => .anySequence
  | .anyOne => .anyOne
  | .anchor => .literal '^'
  | .loneBackslash => .literal '\\'

/-- The pattern of a piece as it is outside a literal. -/
def Piece.pattern : Piece → List Char
  | .literal c => if isLikeSpecial c then ['\\', c] else [c]
  | .anySequence => ['%']
  | .anyOne => ['_']
  | .anchor => ['^']
  | .loneBackslash => ['\\', '\\']

theorem Piece.mask_ofChar (c : Char) : (Piece.ofChar c).mask = Mask.ofTermChar c := by
  unfold Piece.ofChar Mask.ofTermChar
  by_cases hstar : c = '*'
  · rw [if_pos hstar, if_pos hstar]
    rfl
  · rw [if_neg hstar, if_neg hstar]
    by_cases hone : c = '?'
    · rw [if_pos hone, if_pos hone]
      rfl
    · rw [if_neg hone, if_neg hone]
      by_cases hanchor : c = '^'
      · rw [if_pos hanchor, hanchor]
        rfl
      · rw [if_neg hanchor]
        rfl

/-- The pieces of a term are its masks. -/
theorem map_mask_pieces (term : List Char) : (pieces term).map Piece.mask = termMasks term := by
  fun_induction pieces term with
  | case1 => rfl
  | case2 => rfl
  | case3 c cs ih =>
    rw [List.map_cons, ih, termMasks]
    rfl
  | case4 c cs hend hpair ih =>
    rw [List.map_cons, ih, Piece.mask_ofChar, termMasks]
    · exact hend
    · exact hpair

theorem Piece.undouble_like (p : Piece) : undouble p.like = some p.pattern := by
  cases p with
  | literal c =>
    rw [Piece.like, Piece.pattern]
    by_cases hs : isLikeSpecial c = true
    · rw [if_pos hs, if_pos hs]
      -- a quote is not special, so none stands behind the backslash
      have hc : c ≠ '\'' := by
        rintro rfl
        exact absurd hs (by decide)
      rw [undouble_cons (by decide), undouble_cons hc]
      rfl
    · rw [if_neg hs, if_neg hs]
      exact undouble_doubleQuote c
  | anySequence => rfl
  | anyOne => rfl
  | anchor => rfl
  | loneBackslash => rfl

/-- One piece is read back as its mask, whatever pattern follows. -/
theorem Piece.patternMasks_append (p : Piece) (rest : List Char) :
    patternMasks (p.pattern ++ rest) = (patternMasks rest).map (p.mask :: ·) := by
  cases p with
  | literal c =>
    rw [Piece.pattern]
    by_cases hs : isLikeSpecial c = true
    · rw [if_pos hs]
      rfl
    · rw [if_neg hs]
      simp only [isLikeSpecial, Bool.or_eq_true, beq_iff_eq, not_or] at hs
      obtain ⟨⟨⟨⟨hpercent, hone⟩, hbackslash⟩, -⟩, -⟩ := hs
      show patternMasks (c :: rest) = _
      rw [patternMasks_cons hbackslash, Mask.ofPatternChar, if_neg hpercent, if_neg hone]
      rfl
  | anySequence => exact patternMasks_cons (by decide) rest
  | anyOne => exact patternMasks_cons (by decide) rest
  | anchor => exact patternMasks_cons (by decide) rest
  | loneBackslash => rfl

theorem patternMasks_flatMap (ps : List Piece) :
    patternMasks (ps.flatMap Piece.pattern) = some (ps.map Piece.mask) := by
  induction ps with
  | nil => rfl
  | cons p ps ih =>
    rw [List.flatMap_cons, Piece.patternMasks_append, ih]
    rfl

/-! ## §4. The pattern of a term. -/

/-- Outside its literal, the pattern of a term is read as the term's masks. -/
theorem exists_undouble_like (term : String) :
    ∃ pattern, undouble (like term).toList = some pattern ∧
      patternMasks pattern = some (termMasks term.toList) := by
  refine ⟨(pieces term.toList).flatMap Piece.pattern, ?_, ?_⟩
  · rw [like, String.toList_ofList]
    exact undouble_flatMap Piece.undouble_like _
  · rw [patternMasks_flatMap, map_mask_pieces]

/-- **The `LIKE` pattern of a search term means what the term means**: its
quotes come in pairs, it has the masks of the term and ends in no dangling
backslash, and it matches the texts that the term matches. -/
theorem like_reads_as_term (term : String) :
    ∃ pattern, undouble (like term).toList = some pattern ∧
      patternMasks pattern = some (termMasks term.toList) ∧
      ∀ text, LikeMatches pattern text ↔ TermMatches term.toList text := by
  obtain ⟨pattern, hbody, hmasks⟩ := exists_undouble_like term
  refine ⟨pattern, hbody, hmasks, ?_⟩
  intro text
  rw [likeMatches_iff_covers, termMatches_iff_covers, hmasks]
  simp

/-- Runs of backslashes before a mask and at the end, and characters that are
special in one of the two only. -/
example : patternMasks "\\\\%\\*\\%_'\\\\".toList = some (termMasks "\\\\*\\*%?'\\".toList) := by
  decide

end CqlToSql.Term
