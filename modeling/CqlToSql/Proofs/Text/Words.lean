/-
  CqlToSql.Proofs.Text.Words
  ──────────────────────────
  **The words of a text.**  A text is cut into words at any of its blanks:

      words (x ++ blank :: y)  =  words x ++ words y

  From this equation it follows that blanks at the two ends of a text are of
  no account.  Words hold no blanks, and they hold everything else.  A trimmed
  text has no blanks at its ends.
-/
import CqlToSql.Text.Blank
import Mathlib.Data.List.TakeWhile

namespace CqlToSql.Text

variable {c d : Char} {cs blanks : List Char}

/-! ## §1. One character. -/

theorem wordsOf_blank (hc : isBlank c = true) (cs : List Char) : wordsOf (c :: cs) = wordsOf cs := by
  rw [wordsOf.eq_def]
  exact if_pos hc

theorem exists_cons_of_letter (hc : isBlank c = false) (cs : List Char) :
    ∃ word others, wordsOf (c :: cs) = word :: others := by
  unfold wordsOf
  rw [if_neg (by simp [hc])]
  split
  · split <;> exact ⟨_, _, rfl⟩
  · exact ⟨_, _, rfl⟩

/-- A letter before a blank or the end is a word. -/
theorem wordsOf_last_letter (hc : isBlank c = false) (hcs : cs.head?.all isBlank = true) :
    wordsOf (c :: cs) = [c] :: wordsOf cs := by
  rw [wordsOf.eq_def]
  dsimp only
  rw [if_neg (by simp [hc])]
  split
  · rename_i d ds word others hwords
    have hd : isBlank d = true := hcs
    rw [if_pos hd, hwords]
  · rfl

/-- A letter before another one joins its word. -/
theorem wordsOf_letter (hc : isBlank c = false) (hd : isBlank d = false) (cs : List Char) :
    wordsOf (c :: d :: cs) = (wordsOf (d :: cs)).modifyHead (c :: ·) := by
  obtain ⟨word, others, hwords⟩ := exists_cons_of_letter hd cs
  rw [wordsOf.eq_def]
  dsimp only
  rw [if_neg (by simp [hc]), hwords]
  dsimp only
  rw [if_neg (by simp [hd])]
  rfl

/-- The three ways a text goes on, which are those of the equations above. -/
@[elab_as_elim]
theorem wordsInduction {P : List Char → Prop} (cs : List Char) (nil : P [])
    (blank : ∀ c cs, isBlank c = true → P cs → P (c :: cs))
    (last : ∀ c cs, isBlank c = false → cs.head?.all isBlank = true → P cs → P (c :: cs))
    (letter : ∀ c d cs, isBlank c = false → isBlank d = false → P (d :: cs) → P (c :: d :: cs)) :
    P cs := by
  induction cs with
  | nil => exact nil
  | cons c cs ih =>
    cases hc : isBlank c with
    | true => exact blank c cs hc ih
    | false =>
      cases cs with
      | nil => exact last c [] hc rfl ih
      | cons d cs =>
        cases hd : isBlank d with
        | true => exact last c (d :: cs) hc hd ih
        | false => exact letter c d cs hc hd ih

/-! ## §2. Cutting at a blank. -/

/-- **A text is cut at any of its blanks.** -/
theorem wordsOf_append_blank (hc : isBlank c = true) (xs ys : List Char) :
    wordsOf (xs ++ c :: ys) = wordsOf xs ++ wordsOf ys := by
  induction xs using wordsInduction with
  | nil => exact wordsOf_blank hc ys
  | blank a xs ha ih => rw [List.cons_append, wordsOf_blank ha, wordsOf_blank ha, ih]
  | last a xs ha hend ih =>
    -- the letter ends its word in the longer text too: there the blank `c` may be next
    have hnext : (xs ++ c :: ys).head?.all isBlank = true := by
      cases xs with
      | nil => exact hc
      | cons b xs => exact hend
    rw [List.cons_append, wordsOf_last_letter ha hnext, wordsOf_last_letter ha hend, ih,
      List.cons_append]
  | letter a b xs ha hb ih =>
    obtain ⟨word, others, hwords⟩ := exists_cons_of_letter hb xs
    rw [List.cons_append, List.cons_append, wordsOf_letter ha hb, ← List.cons_append, ih,
      wordsOf_letter ha hb, hwords]
    rfl

/-- What starts with a blank, or not at all, has words of its own. -/
theorem wordsOf_append (xs : List Char) (hcs : cs.head?.all isBlank = true) :
    wordsOf (xs ++ cs) = wordsOf xs ++ wordsOf cs := by
  cases cs with
  | nil => rw [List.append_nil, wordsOf, List.append_nil]
  | cons c cs =>
    have hc : isBlank c = true := hcs
    rw [wordsOf_append_blank hc, wordsOf_blank hc]

theorem wordsOf_of_letters {letters : List Char} (hne : letters ≠ [])
    (hletters : ∀ l ∈ letters, isBlank l = false) : wordsOf letters = [letters] := by
  induction letters with
  | nil => exact absurd rfl hne
  | cons l ls ih =>
    have hl : isBlank l = false := hletters l List.mem_cons_self
    cases ls with
    | nil => exact wordsOf_last_letter hl rfl
    | cons d ds =>
      rw [wordsOf_letter hl (hletters d (by simp)),
        ih (by simp) fun d hd => hletters d (List.mem_cons_of_mem l hd)]
      rfl

/-! ## §3. Blanks at the ends. -/

theorem wordsOf_of_blanks (hblanks : ∀ b ∈ blanks, isBlank b = true) : wordsOf blanks = [] := by
  induction blanks with
  | nil => rfl
  | cons b bs ih =>
    rw [wordsOf_blank (hblanks b List.mem_cons_self)]
    exact ih fun d hd => hblanks d (List.mem_cons_of_mem b hd)

theorem wordsOf_append_blanks (hblanks : ∀ b ∈ blanks, isBlank b = true) (cs : List Char) :
    wordsOf (cs ++ blanks) = wordsOf cs := by
  have hstart : blanks.head?.all isBlank = true := by
    cases blanks with
    | nil => rfl
    | cons b bs => exact hblanks b List.mem_cons_self
  rw [wordsOf_append cs hstart, wordsOf_of_blanks hblanks, List.append_nil]

theorem wordsOf_dropBlanks (cs : List Char) : wordsOf (dropBlanks cs) = wordsOf cs := by
  induction cs with
  | nil => rfl
  | cons c cs ih =>
    unfold dropBlanks
    by_cases hc : isBlank c = true
    · rw [List.dropWhile_cons_of_pos hc, wordsOf_blank hc]
      exact ih
    · rw [List.dropWhile_cons_of_neg hc]

theorem exists_dropFinalBlanks_append (cs : List Char) :
    ∃ blanks, (∀ b ∈ blanks, isBlank b = true) ∧ cs = dropFinalBlanks cs ++ blanks := by
  induction cs with
  | nil => exact ⟨[], by simp, rfl⟩
  | cons c cs ih =>
    obtain ⟨blanks, hblanks, hcs⟩ := ih
    rw [dropFinalBlanks]
    split
    · rename_i hnone
      rw [hnone, List.nil_append] at hcs
      by_cases hc : isBlank c = true
      · refine ⟨c :: blanks, ?_, ?_⟩
        · simpa [hc] using hblanks
        · rw [if_pos hc, List.nil_append, ← hcs]
      · refine ⟨blanks, hblanks, ?_⟩
        rw [if_neg hc, List.singleton_append, ← hcs]
    · exact ⟨blanks, hblanks, by rw [List.cons_append, ← hcs]⟩

/-- Trimming a text keeps its words. -/
theorem words_trim (s : String) : words (trim s) = words s := by
  obtain ⟨blanks, hblanks, hcs⟩ := exists_dropFinalBlanks_append (dropBlanks s.toList)
  have hback := wordsOf_append_blanks hblanks (dropFinalBlanks (dropBlanks s.toList))
  rw [← hcs] at hback
  rw [words, words, trim, String.toList_ofList, ← hback, wordsOf_dropBlanks]

/-! ## §4. Trimmed texts. -/

/-- What stands before a character that is not blank stays. -/
theorem dropFinalBlanks_append {c : Char} (hc : isBlank c = false) (front rest : List Char) :
    dropFinalBlanks (front ++ c :: rest) = front ++ c :: dropFinalBlanks rest := by
  have hstart : dropFinalBlanks (c :: rest) = c :: dropFinalBlanks rest := by
    rw [dropFinalBlanks]
    split
    · rename_i hnone
      rw [hc, hnone]
      rfl
    · rfl
  induction front with
  | nil => exact hstart
  | cons d front ih =>
    rw [List.cons_append, dropFinalBlanks, ih]
    cases front <;> rfl

theorem dropFinalBlanks_idem (cs : List Char) :
    dropFinalBlanks (dropFinalBlanks cs) = dropFinalBlanks cs := by
  induction cs with
  | nil => rfl
  | cons c cs ih =>
    rw [dropFinalBlanks]
    split
    · split
      · rfl
      · rename_i hc
        simp [dropFinalBlanks, hc]
    · rename_i hkept
      rw [dropFinalBlanks, ih]
      split
      · rename_i hnone
        exact absurd hnone hkept
      · rfl

/-- A text that is not blank starts with another character when it is trimmed. -/
theorem exists_toList_trim {s : String} (h : isAllBlank s = false) :
    ∃ c cs, isBlank c = false ∧ (trim s).toList = c :: cs := by
  unfold trim dropBlanks
  rw [String.toList_ofList]
  cases hdrop : s.toList.dropWhile isBlank with
  | nil =>
    rw [List.dropWhile_eq_nil_iff] at hdrop
    rw [isAllBlank, List.all_eq_true.2 hdrop] at h
    cases h
  | cons c cs =>
    have hc : isBlank c = false := by
      have hhead := List.head?_dropWhile_not isBlank s.toList
      rw [hdrop] at hhead
      simpa using hhead
    exact ⟨c, _, hc, dropFinalBlanks_append hc [] cs⟩

/-- Between two trimmed texts, of which the first is not empty, there is nothing
to trim. -/
theorem trim_join {a : String} (ha : isAllBlank a = false) (b : String) :
    trim (trim a ++ "." ++ trim b) = trim a ++ "." ++ trim b := by
  obtain ⟨c, cs, hc, hcs⟩ := exists_toList_trim ha
  have hchars : (trim a ++ "." ++ trim b).toList = (trim a).toList ++ '.' :: (trim b).toList := by
    simp
  have hfront : dropBlanks (trim a ++ "." ++ trim b).toList = (trim a ++ "." ++ trim b).toList := by
    rw [hchars, hcs]
    exact List.dropWhile_cons_of_neg (by simp [hc])
  have hback : dropFinalBlanks (trim b).toList = (trim b).toList := by
    unfold trim
    rw [String.toList_ofList, dropFinalBlanks_idem]
  rw [← String.toList_inj, trim, String.toList_ofList, hfront, hchars,
    dropFinalBlanks_append (by decide), hback]

/-! ## §5. What words hold. -/

/-- The words hold all that is not blank, in order. -/
theorem flatten_wordsOf (cs : List Char) :
    (wordsOf cs).flatten = cs.filter fun c => !isBlank c := by
  induction cs using wordsInduction with
  | nil => rfl
  | blank c cs hc ih => rw [wordsOf_blank hc, ih, List.filter_cons_of_neg (by simp [hc])]
  | last c cs hc hend ih =>
    rw [wordsOf_last_letter hc hend, List.filter_cons_of_pos (by simp [hc]), ← ih]
    rfl
  | letter c d cs hc hd ih =>
    obtain ⟨word, others, hwords⟩ := exists_cons_of_letter hd cs
    rw [wordsOf_letter hc hd, List.filter_cons_of_pos (by simp [hc]), ← ih, hwords]
    rfl

/-- A word holds no blanks. -/
theorem no_blank_of_mem_words {s word : String} (h : word ∈ words s) :
    ∀ c ∈ word.toList, isBlank c = false := by
  obtain ⟨letters, hletters, rfl⟩ := List.mem_map.1 h
  intro c hc
  rw [String.toList_ofList] at hc
  have hkept : c ∈ (wordsOf s.toList).flatten := List.mem_flatten.2 ⟨letters, hletters, hc⟩
  rw [flatten_wordsOf, List.mem_filter] at hkept
  simpa using hkept.2

/-- A text without words is nothing but blanks. -/
theorem trim_eq_empty_iff (s : String) : trim s = "" ↔ words s = [] := by
  constructor
  · intro h
    rw [← words_trim, h]
    rfl
  · intro h
    have hnone : s.toList.filter (fun c => !isBlank c) = [] := by
      rw [← flatten_wordsOf, List.map_eq_nil_iff.1 h]
      rfl
    have hblank : ∀ c ∈ s.toList, isBlank c = true := by simpa using hnone
    rw [trim, dropBlanks, List.dropWhile_eq_nil_iff.2 hblank]
    rfl

end CqlToSql.Text
