/-
  CqlToSql.Proofs.Term.Plain
  ──────────────────────────
  **Terms that stand for one text.**  A term without masks and anchors stands
  for its characters, each backslash giving way to the one behind it.  The two
  bodies of an SQL literal that are made of it, outside the literal:

      plain   — that text itself
      like    — that text with a backslash before each of  % _ \ ? *

  Main statement: the two bodies are the same just when the text holds none of
  the five characters (`like_eq_plain_iff`).
-/
import CqlToSql.Proofs.Term.FullText
import CqlToSql.Term.Plain
import Mathlib.Data.List.Basic

namespace CqlToSql.Term

open CqlToSql.Text
open CqlToSql.Sql

/-! ## §1. The text of a term. -/

/-- The text with its escapes taken back. -/
def unescape : List Char → List Char
  | [] => []
  | '\\' :: c :: cs => c :: unescape cs
  | c :: cs => c :: unescape cs

/-- A mask or an anchor. -/
def IsMaskOrAnchor (c : Char) (_after : List Char) : Prop := c = '*' ∨ c = '?' ∨ c = '^'

/-- The term has no mask and no anchor that is not escaped, and its last
backslash has something to escape. -/
def IsPlain (cs : List Char) : Prop := ¬ HasUnescaped IsMaskOrAnchor cs ∧ endsInEscape cs = false

variable {c : Char} {cs : List Char} {term : String}

theorem not_isMaskOrAnchor_backslash (after : List Char) : ¬ IsMaskOrAnchor '\\' after := by
  simp [IsMaskOrAnchor]

theorem unescape_cons (hc : c ≠ '\\') (cs : List Char) : unescape (c :: cs) = c :: unescape cs := by
  rw [unescape]
  rintro d ds rfl
  exact absurd rfl hc

theorem isPlain_pair (c : Char) (cs : List Char) : IsPlain ('\\' :: c :: cs) ↔ IsPlain cs := by
  unfold IsPlain
  rw [hasUnescaped_pair not_isMaskOrAnchor_backslash, endsInEscape_pair]

theorem isPlain_cons (hc : c ≠ '\\') (cs : List Char) :
    IsPlain (c :: cs) ↔ ¬ IsMaskOrAnchor c cs ∧ IsPlain cs := by
  unfold IsPlain
  rw [hasUnescaped_cons hc, endsInEscape_cons hc, not_or, and_assoc]

theorem Piece.ofChar_eq_literal_iff (c : Char) (after : List Char) :
    Piece.ofChar c = .literal c ↔ ¬ IsMaskOrAnchor c after := by
  unfold Piece.ofChar IsMaskOrAnchor
  by_cases hstar : c = '*'
  · simp [hstar]
  · by_cases hone : c = '?'
    · simp [hone]
    · by_cases hanchor : c = '^'
      · simp [hanchor]
      · simp [hstar, hone, hanchor]

/-- The pieces of a plain term are the characters that it stands for, and only
plain terms have such pieces. -/
theorem isPlain_iff (cs : List Char) :
    IsPlain cs ↔ pieces cs = (unescape cs).map Piece.literal := by
  fun_induction pieces cs with
  | case1 => exact iff_of_true ⟨not_hasUnescaped_nil, rfl⟩ rfl
  | case2 =>
    refine iff_of_false (fun h => ?_) (by simp [unescape])
    exact absurd h.2 (by decide)
  | case3 c cs ih =>
    rw [isPlain_pair, ih, unescape, List.map_cons, List.cons.injEq]
    simp
  | case4 c cs hend hpair ih =>
    have hc := ne_backslash_of_cases hend hpair
    rw [isPlain_cons hc, ih, unescape_cons hc, List.map_cons, List.cons.injEq,
      Piece.ofChar_eq_literal_iff c cs]

/-! ## §2. The two bodies of a plain term. -/

/-- A character as it stands in a pattern. -/
def escapeLike (c : Char) : List Char := if isLikeSpecial c then ['\\', c] else [c]

theorem plain_of_isPlain (h : IsPlain term.toList) :
    plain term = .ok (String.ofList ((unescape term.toList).flatMap doubleQuote)) := by
  have hliterals : ∀ cs : List Char,
      plainPieces term (cs.map .literal) = .ok (cs.flatMap doubleQuote) := by
    intro cs
    induction cs with
    | nil => rfl
    | cons c cs ih =>
      rw [List.map_cons, plainPieces, ih]
      rfl
  unfold plain
  rw [(isPlain_iff _).1 h, hliterals]
  rfl

theorem like_of_isPlain (h : IsPlain term.toList) :
    (like term).toList = (unescape term.toList).flatMap fun c => (Piece.literal c).like := by
  rw [like, String.toList_ofList, (isPlain_iff _).1 h, List.flatMap_map]

/-- Outside its literal the plain string is the text of the term. -/
theorem undouble_plain (cs : List Char) : undouble (cs.flatMap doubleQuote) = some cs := by
  rw [undouble_flatMap undouble_doubleQuote]
  simp

/-- Outside its literal the pattern is the text of the term, with escapes. -/
theorem undouble_like_of_isPlain (h : IsPlain term.toList) :
    undouble (like term).toList = some ((unescape term.toList).flatMap escapeLike) := by
  rw [like_of_isPlain h]
  exact undouble_flatMap (fun c => (Piece.literal c).undouble_like) _

/-- Each escape makes the text longer by one. -/
theorem length_flatMap_escapeLike (cs : List Char) :
    (cs.flatMap escapeLike).length = cs.length + cs.countP isLikeSpecial := by
  induction cs with
  | nil => rfl
  | cons c cs ih =>
    rw [List.flatMap_cons, List.length_append, ih, List.countP_cons, List.length_cons]
    unfold escapeLike
    split
    · simp only [List.length_cons, List.length_nil]
      omega
    · simp only [List.length_cons, List.length_nil]
      omega

/-- Escapes leave a text as it is just when there is nothing to escape. -/
theorem flatMap_escapeLike_eq_self_iff (cs : List Char) :
    cs.flatMap escapeLike = cs ↔ ∀ c ∈ cs, isLikeSpecial c = false := by
  constructor
  · intro hsame
    have hlength := length_flatMap_escapeLike cs
    rw [hsame] at hlength
    have hcount : cs.countP isLikeSpecial = 0 := by omega
    simpa [List.countP_eq_zero] using hcount
  · intro hnone
    induction cs with
    | nil => rfl
    | cons c cs ih =>
      have hc : escapeLike c = [c] := by simp [escapeLike, hnone c List.mem_cons_self]
      rw [List.flatMap_cons, hc, ih fun d hd => hnone d (List.mem_cons_of_mem c hd)]
      rfl

/-- The two bodies of a plain term are the same just when its text needs no
escape in a pattern. -/
theorem like_eq_plain_iff (h : IsPlain term.toList) :
    like term = String.ofList ((unescape term.toList).flatMap doubleQuote) ↔
      ∀ c ∈ unescape term.toList, isLikeSpecial c = false := by
  rw [← flatMap_escapeLike_eq_self_iff]
  constructor
  · intro hsame
    have hlike := undouble_like_of_isPlain h
    rw [hsame, String.toList_ofList, undouble_plain, Option.some.injEq] at hlike
    exact hlike.symm
  · intro hsame
    have hnone := (flatMap_escapeLike_eq_self_iff _).1 hsame
    rw [← String.toList_inj, like_of_isPlain h, String.toList_ofList]
    -- character by character, as none is special
    refine List.flatMap_congr fun c hc => ?_
    rw [Piece.like, if_neg (by simp [hnone c hc])]

end CqlToSql.Term
