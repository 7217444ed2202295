/-
  CqlToSql.Proofs.Condition.SearchWords
  ─────────────────────────────────────
  **The words that a full text search looks for.**  A star that stands alone
  is no word, so a search should look for the other words of its term.  The
  stars are taken out of the text before it is cut into words: each star
  after a space goes, with the spaces before it.  Of the stars that a word
  starts with,

      stands alone, after a space         — is left out, as it should be
      stands alone, not after a space     — stays
      starts a longer word, after a space — goes, and joins the rest of the
                                            word to the word before
      starts a longer word otherwise      — stays, as it should

  Main statement: without the second and the third kind, a search looks for
  the words of its term other than the star.  With stars of just one of the
  two it does not, because too few or too many of them are left out.
-/
import CqlToSql.Proofs.Condition.Outcome
import CqlToSql.Proofs.Text.Words
import Mathlib.Data.List.Count

namespace CqlToSql.Condition

open CqlToSql.Text

/-! ## §1. Stars that stand alone. -/

/-- Each star that a word starts with comes after a space just when it stands
alone. -/
def StarsStandAlone (cs : List Char) : Prop :=
  ∀ before after, cs = before ++ '*' :: after → before.getLast?.all isBlank = true →
    (before.getLast? = some ' ' ↔ after.head?.all isBlank = true)

/-- Reads the text from the left for `StarsStandAlone`; `previous` is the
character before it. -/
def standAloneFrom (previous : Option Char) : List Char → Bool
  | [] => true
  | c :: cs =>
    (!(c == '*' && previous.all isBlank) || decide (previous = some ' ') == cs.head?.all isBlank)
      && standAloneFrom (some c) cs

variable {cs letters : List Char} {c : Char} {previous : Option Char}

theorem standAloneFrom_iff (start cs : List Char) :
    standAloneFrom start.getLast? cs = true ↔
      ∀ before after, cs = before ++ '*' :: after → (start ++ before).getLast?.all isBlank = true →
        ((start ++ before).getLast? = some ' ' ↔ after.head?.all isBlank = true) := by
  induction cs generalizing start with
  | nil => simp [standAloneFrom]
  | cons c cs ih =>
    have hnext := ih (start ++ [c])
    rw [List.getLast?_concat] at hnext
    rw [standAloneFrom, Bool.and_eq_true, hnext]
    constructor
    · rintro ⟨hfirst, hrest⟩ before after hcs hstart
      cases before with
      | nil =>
        -- the star is the first character of what is left
        cases hcs
        rw [List.append_nil] at hstart ⊢
        have hsame : decide (start.getLast? = some ' ') = cs.head?.all isBlank := by
          simpa [hstart] using hfirst
        rw [← hsame, decide_eq_true_eq]
      | cons b before =>
        cases hcs
        simpa using hrest before after rfl (by simpa using hstart)
    · intro h
      refine ⟨?_, ?_⟩
      · by_cases hc : c = '*'
        · have hfirst := h [] cs (by rw [hc]; rfl)
          rw [List.append_nil] at hfirst
          cases hstart : start.getLast?.all isBlank with
          | false => simp [hc]
          | true =>
            have hsame : decide (start.getLast? = some ' ') = cs.head?.all isBlank := by
              rw [Bool.eq_iff_iff, decide_eq_true_eq]
              exact hfirst hstart
            simp [hsame]
        · simp [hc]
      · intro before after hcs hstart
        have hwhole := h (c :: before) after (by rw [hcs]; rfl)
        simpa using hwhole (by simpa using hstart)

theorem starsStandAlone_iff : StarsStandAlone cs ↔ standAloneFrom none cs = true :=
  (standAloneFrom_iff [] cs).symm

instance (cs : List Char) : Decidable (StarsStandAlone cs) :=
  decidable_of_iff _ starsStandAlone_iff.symm

/-! ## §2. What is taken out. -/

/-- The words other than the star. -/
def keepWords (words : List (List Char)) : List (List Char) := words.filter (· ≠ ['*'])

theorem keepWords_append (ws vs : List (List Char)) :
    keepWords (ws ++ vs) = keepWords ws ++ keepWords vs :=
  List.filter_append ..

/-- Letters make one word at most, which is kept unless it is the star. -/
theorem keepWords_letters (h : letters ≠ ['*']) (hletters : ∀ l ∈ letters, isBlank l = false) :
    keepWords (wordsOf letters) = wordsOf letters := by
  by_cases hne : letters = []
  · rw [hne]
    rfl
  · rw [wordsOf_of_letters hne hletters]
    simp [keepWords, h]

theorem isBlank_space : isBlank ' ' = true := by decide

theorem isBlank_star : isBlank '*' = false := by decide

theorem wordsOf_append_spaces (n : Nat) (xs ys : List Char) :
    wordsOf (xs ++ (List.replicate (n + 1) ' ' ++ ys)) = wordsOf xs ++ wordsOf ys := by
  have hspaces : ∀ b ∈ List.replicate n ' ', isBlank b = true := by
    intro b hb
    rw [List.eq_of_mem_replicate hb]
    exact isBlank_space
  rw [List.replicate_succ', List.append_assoc, ← List.append_assoc, List.singleton_append,
    wordsOf_append_blank isBlank_space, wordsOf_append_blanks hspaces]

theorem no_blank_snoc (hletters : ∀ l ∈ letters, isBlank l = false) (hc : isBlank c = false) :
    ∀ l ∈ letters ++ [c], isBlank l = false := by
  intro l hl
  rcases List.mem_append.1 hl with hl | hl
  · exact hletters l hl
  · rw [List.mem_singleton.1 hl]
    exact hc

theorem standAloneFrom_next (h : standAloneFrom previous (c :: cs) = true) :
    standAloneFrom (some c) cs = true := by
  rw [standAloneFrom, Bool.and_eq_true] at h
  exact h.2

/-- Without a space before it, a star that a word starts with goes on. -/
theorem standAloneFrom_star (h : standAloneFrom previous ('*' :: cs) = true)
    (hprevious : previous.all isBlank = true) :
    cs.head?.all isBlank = decide (previous = some ' ') := by
  rw [standAloneFrom, Bool.and_eq_true, hprevious] at h
  exact (by simpa using h.1 : decide (previous = some ' ') = cs.head?.all isBlank).symm

/-- The words that come out of `cs` are the kept ones, for a reader that has
`letters` of an unfinished word, and for one behind spaces, which have ended
that word but are written only when no star follows them. -/
structure KeepsRight (cs : List Char) : Prop where
  afterLetters : ∀ letters previous, (∀ l ∈ letters, isBlank l = false) →
    (letters = [] → cs.head? = some '*' → previous.all isBlank = true ∧ previous ≠ some ' ') →
    (letters = ['*'] → cs.head?.all isBlank = false) → standAloneFrom previous cs = true →
    wordsOf (letters ++ dropStarsFrom 0 cs) = keepWords (wordsOf (letters ++ cs))
  afterSpaces : ∀ letters n, (∀ l ∈ letters, isBlank l = false) → letters ≠ ['*'] →
    standAloneFrom (some ' ') cs = true →
    wordsOf (letters ++ dropStarsFrom (n + 1) cs) = wordsOf letters ++ keepWords (wordsOf cs)

theorem keepsRight_nil : KeepsRight [] where
  afterLetters := by
    intro letters previous hletters _ hlone _
    have hne : letters ≠ ['*'] := fun h => absurd (hlone h) (by simp)
    show wordsOf (letters ++ []) = keepWords (wordsOf (letters ++ []))
    rw [List.append_nil, keepWords_letters hne hletters]
  afterSpaces := by
    intro letters n hletters _ _
    have hspaces := wordsOf_append_spaces n letters []
    rw [List.append_nil] at hspaces
    exact hspaces

theorem KeepsRight.space (h : KeepsRight cs) : KeepsRight (' ' :: cs) where
  afterLetters := by
    intro letters previous hletters _ hlone halone
    have hne : letters ≠ ['*'] := fun h => absurd (hlone h) (by simp [isBlank_space])
    show wordsOf (letters ++ dropStarsFrom (0 + 1) cs) = _
    rw [h.afterSpaces letters 0 hletters hne (standAloneFrom_next halone),
      wordsOf_append_blank isBlank_space, keepWords_append, keepWords_letters hne hletters]
  afterSpaces := by
    intro letters n hletters hne halone
    show wordsOf (letters ++ dropStarsFrom (n + 1 + 1) cs) = _
    rw [h.afterSpaces letters (n + 1) hletters hne (standAloneFrom_next halone),
      wordsOf_blank isBlank_space]

theorem KeepsRight.star (h : KeepsRight cs) : KeepsRight ('*' :: cs) where
  afterLetters := by
    -- the star stays, and if it starts a word it does not stand alone
    intro letters previous hletters hprevious _ halone
    have hgoes : letters ++ ['*'] = ['*'] → cs.head?.all isBlank = false := by
      intro hletter
      obtain ⟨hblank, hne⟩ := hprevious (by simpa using hletter) rfl
      rw [standAloneFrom_star halone hblank]
      simpa using hne
    show wordsOf (letters ++ '*' :: dropStarsFrom 0 cs) = keepWords (wordsOf (letters ++ '*' :: cs))
    rw [List.append_cons, List.append_cons letters '*' cs]
    exact h.afterLetters (letters ++ ['*']) (some '*') (no_blank_snoc hletters isBlank_star)
      (by simp) hgoes (standAloneFrom_next halone)
  afterSpaces := by
    -- the star goes, and what follows it is not joined to the letters
    intro letters n hletters hne halone
    have hend : cs.head?.all isBlank = true := by
      rw [standAloneFrom_star halone isBlank_space]
      simp
    have hnostar : cs.head? ≠ some '*' := by
      intro hhead
      rw [hhead] at hend
      exact absurd hend (by simp [isBlank_star])
    have hlone : wordsOf ('*' :: cs) = ['*'] :: wordsOf cs := wordsOf_last_letter isBlank_star hend
    show wordsOf (letters ++ dropStarsFrom 0 cs) = _
    rw [h.afterLetters letters (some '*') hletters (fun _ hhead => absurd hhead hnostar)
      (fun hletter => absurd hletter hne) (standAloneFrom_next halone),
      wordsOf_append letters hend, keepWords_append, keepWords_letters hne hletters, hlone]
    rfl

theorem dropStarsFrom_other (hspace : c ≠ ' ') (hstar : c ≠ '*') (n : Nat) (cs : List Char) :
    dropStarsFrom n (c :: cs) = List.replicate n ' ' ++ c :: dropStarsFrom 0 cs := by
  rw [dropStarsFrom, if_neg hspace, if_neg (by simp [hstar])]

/-- Any other blank ends the word as well, and nothing waits behind it. -/
theorem KeepsRight.blank (h : KeepsRight cs) (hspace : c ≠ ' ') (hc : isBlank c = true) :
    KeepsRight (c :: cs) := by
  have hstar : c ≠ '*' := by
    rintro rfl
    exact absurd hc (by simp [isBlank_star])
  -- a star that follows is not taken out, so it must not stand alone
  have hrest : standAloneFrom (some c) cs = true →
      wordsOf (dropStarsFrom 0 cs) = keepWords (wordsOf cs) :=
    h.afterLetters [] (some c) (by simp) (fun _ _ => ⟨hc, by simpa using hspace⟩) (by simp)
  constructor
  · intro letters previous hletters _ hlone halone
    have hne : letters ≠ ['*'] := fun h => absurd (hlone h) (by simp [hc])
    rw [dropStarsFrom_other hspace hstar, List.replicate_zero, List.nil_append,
      wordsOf_append_blank hc, wordsOf_append_blank hc, keepWords_append,
      keepWords_letters hne hletters, hrest (standAloneFrom_next halone)]
  · intro letters n _ _ halone
    rw [dropStarsFrom_other hspace hstar, wordsOf_append_spaces, wordsOf_blank hc, wordsOf_blank hc,
      hrest (standAloneFrom_next halone)]

theorem KeepsRight.letter (h : KeepsRight cs) (hstar : c ≠ '*') (hc : isBlank c = false) :
    KeepsRight (c :: cs) := by
  have hspace : c ≠ ' ' := by
    rintro rfl
    exact absurd hc (by simp [isBlank_space])
  constructor
  · intro letters previous hletters _ _ halone
    rw [dropStarsFrom_other hspace hstar, List.replicate_zero, List.nil_append, List.append_cons,
      List.append_cons letters c cs]
    refine h.afterLetters (letters ++ [c]) (some c) (no_blank_snoc hletters hc) (by simp) ?_
      (standAloneFrom_next halone)
    intro hletter
    exact absurd (by simpa using congrArg List.getLast? hletter) hstar
  · intro letters n _ _ halone
    have hword := h.afterLetters [c] (some c) (by simpa using hc) (by simp) (by simp [hstar])
      (standAloneFrom_next halone)
    rw [dropStarsFrom_other hspace hstar, wordsOf_append_spaces]
    exact congrArg (wordsOf letters ++ ·) hword

/-- On every text the right words are kept. -/
theorem keepsRight (cs : List Char) : KeepsRight cs := by
  induction cs with
  | nil => exact keepsRight_nil
  | cons c cs ih =>
    by_cases hspace : c = ' '
    · rw [hspace]
      exact ih.space
    · by_cases hstar : c = '*'
      · rw [hstar]
        exact ih.star
      · cases hc : isBlank c with
        | true => exact ih.blank hspace hc
        | false => exact ih.letter hstar hc

/-! ## §3. How many stars are taken out. -/

/-- The number of stars after a space. -/
def starsAfterSpace (cs : List Char) : Nat := (cs.zip cs.tail).count (' ', '*')

/-- Each star after a space is taken out, and no other. -/
theorem count_dropStarsFrom (n : Nat) (p : Char) (hp : p = ' ' ↔ 0 < n) (cs : List Char) :
    (dropStarsFrom n cs).count '*' + ((p :: cs).zip cs).count (' ', '*') = cs.count '*' := by
  -- `p` is the character before: spaces wait to be written just when it is one
  have hspaces : ∀ k, (List.replicate k ' ').count '*' = 0 := by
    intro k
    rw [List.count_replicate]
    rfl
  induction cs generalizing n p with
  | nil =>
    rw [dropStarsFrom, hspaces]
    rfl
  | cons c cs ih =>
    rw [List.zip_cons_cons, List.count_cons, List.count_cons]
    by_cases hspace : c = ' '
    · subst hspace
      have hrest := ih (n + 1) ' ' (by simp)
      rw [dropStarsFrom, if_pos rfl, if_neg (by simp), if_neg (by decide)]
      omega
    · have hrest := ih 0 c (by simp [hspace])
      by_cases hstar : c = '*' ∧ 0 < n
      · obtain ⟨rfl, hn⟩ := hstar
        rw [dropStarsFrom, if_neg hspace, if_pos ⟨rfl, hn⟩, if_pos (by simp [hp.2 hn]),
          if_pos (by simp)]
        omega
      · have hpair : ¬ ((p, c) == (' ', '*')) = true := by
          intro heq
          simp only [beq_iff_eq, Prod.mk.injEq] at heq
          exact hstar ⟨heq.2, hp.1 heq.1⟩
        rw [dropStarsFrom, if_neg hspace, if_neg hstar, if_neg hpair, List.count_append, hspaces,
          List.count_cons]
        omega

theorem count_star_wordsOf (cs : List Char) : (wordsOf cs).flatten.count '*' = cs.count '*' := by
  rw [flatten_wordsOf, List.count_filter (by simp [isBlank_star])]

theorem count_star_keepWords (ws : List (List Char)) :
    (keepWords ws).flatten.count '*' + ws.count ['*'] = ws.flatten.count '*' := by
  induction ws with
  | nil => rfl
  | cons w ws ih =>
    unfold keepWords at ih ⊢
    by_cases hw : w = ['*']
    · subst hw
      rw [List.filter_cons_of_neg (by simp), List.count_cons_self, List.flatten_cons,
        List.count_append]
      show _ = 1 + _
      omega
    · rw [List.filter_cons_of_pos (by simpa using hw), List.count_cons_of_ne hw,
        List.flatten_cons, List.flatten_cons, List.count_append, List.count_append]
      omega

theorem starsAfterSpace_of_kept {cs : List Char}
    (h : wordsOf (dropStarsFrom 0 cs) = keepWords (wordsOf cs)) :
    starsAfterSpace cs = (wordsOf cs).count ['*'] := by
  have htaken := count_dropStarsFrom 0 '*' (by simp) cs
  have hkept := count_star_keepWords (wordsOf cs)
  -- what comes before the text does not matter as long as it is no space
  have hpairs : (('*' :: cs).zip cs).count (' ', '*') = starsAfterSpace cs := by
    cases cs with
    | nil => rfl
    | cons c cs =>
      rw [List.zip_cons_cons, List.count_cons_of_ne (by simp)]
      rfl
  rw [← h, count_star_wordsOf, count_star_wordsOf] at hkept
  omega

/-! ## §4. The words of a search. -/

/-- The words of a search term other than the star. -/
def searchWords (term : String) : List String := (Text.words term).filter (· ≠ "*")

/-- The condition of a full text search for some words; without a word any
text will do. -/
def searchFor (f : CqlToSql.Field) (ix : FieldIndexes) (operator : String) (ws : List String) :
    Except Fault String :=
  if ws = [] then .ok (f.text ++ " ~ ''")
  else (lexemes ws).map fun operands => wordsText f ix (joinWith operator operands)

variable {term operator : String} {f : CqlToSql.Field} {m : Matching} {ix : FieldIndexes}

theorem searchWords_eq (term : String) :
    searchWords term = (keepWords (wordsOf term.toList)).map String.ofList := by
  have hstar : ∀ w : List Char, String.ofList w = "*" ↔ w = ['*'] := by
    intro w
    rw [← String.toList_inj, String.toList_ofList]
    rfl
  unfold searchWords keepWords Text.words
  rw [List.filter_map]
  congr 2
  funext w
  simpa using hstar w

theorem words_dropStrayStars (term : String) :
    Text.words (dropStrayStars term) = (wordsOf (dropStarsFrom 0 term.toList)).map String.ofList := by
  unfold Text.words dropStrayStars
  rw [String.toList_ofList]

/-- A search looks for the words that are left. -/
theorem result_words (hstar : trim (dropStrayStars term) ≠ "*") :
    (words term operator f m ix).result
      = searchFor f ix operator (Text.words (trim (dropStrayStars term))) := by
  have hempty : trim (dropStrayStars term) = ""
      ↔ Text.words (trim (dropStrayStars term)) = [] := by
    rw [words_trim, trim_eq_empty_iff]
  unfold words searchFor
  simp only [Logged.result_warnIf_bind]
  rw [if_neg hstar]
  split
  · rename_i h
    rw [if_pos (hempty.1 h)]
    rfl
  · rename_i h
    rw [if_neg (mt hempty.2 h), Logged.result_bind, Logged.result_ofExcept]
    cases lexemes (Text.words (trim (dropStrayStars term))) <;> rfl

theorem words_dropStrayStars_of_alone (h : StarsStandAlone term.toList) :
    Text.words (trim (dropStrayStars term)) = searchWords term := by
  have hkept : wordsOf (dropStarsFrom 0 term.toList) = keepWords (wordsOf term.toList) :=
    (keepsRight term.toList).afterLetters [] none (by simp) (fun _ _ => ⟨rfl, by simp⟩) (by simp)
      (starsStandAlone_iff.1 h)
  rw [words_trim, words_dropStrayStars, hkept, searchWords_eq]

theorem trim_dropStrayStars_ne_star (h : Text.words (trim (dropStrayStars term)) = searchWords term) :
    trim (dropStrayStars term) ≠ "*" := by
  intro hstar
  have hmem : "*" ∈ searchWords term := by
    rw [← h, hstar]
    decide
  unfold searchWords at hmem
  simp at hmem

theorem starsAfterSpace_of_words (h : Text.words (trim (dropStrayStars term)) = searchWords term) :
    starsAfterSpace term.toList = (Text.words term).count "*" := by
  rw [words_trim, words_dropStrayStars, searchWords_eq] at h
  have hinjective : ∀ x y, String.ofList x = String.ofList y → x = y :=
    fun _ _ => String.ofList_injective
  rw [starsAfterSpace_of_kept ((List.map_inj_right hinjective).1 h)]
  exact (List.count_map_of_injective _ _ hinjective _).symm

/-- Where each star that a word starts with comes after a space just when it
stands alone, a search looks for the words of its term other than the star,
each as it is and in their order.  A search that does so takes out as many
stars as stand alone.  The star alone is no search. -/
theorem words_looks_for_searchWords (term operator : String) (f : CqlToSql.Field) (m : Matching)
    (ix : FieldIndexes) :
    (StarsStandAlone term.toList →
      Text.words (trim (dropStrayStars term)) = searchWords term ∧
        (words term operator f m ix).result = searchFor f ix operator (searchWords term)) ∧
    (Text.words (trim (dropStrayStars term)) = searchWords term →
      starsAfterSpace term.toList = (Text.words term).count "*") ∧
    (words "*" operator f m ix).result = .ok "true" := by
  refine ⟨fun halone => ?_, starsAfterSpace_of_words, ?_⟩
  · have hwords := words_dropStrayStars_of_alone halone
    refine ⟨hwords, ?_⟩
    rw [result_words (trim_dropStrayStars_ne_star hwords), hwords]
  · have hstar : trim (dropStrayStars "*") = "*" := by decide +kernel
    unfold words
    simp only [Logged.result_warnIf_bind]
    rw [if_pos hstar]
    rfl

/-- A truncated word keeps its star, and the stars between the words and
behind them go. -/
theorem words_looks_for_truncated_word :
    StarsStandAlone "naïv* * d'été  *".toList ∧
    searchWords "naïv* * d'été  *" = ["naïv*", "d'été"] ∧
    (words "naïv* * d'été  *" "<->" (CqlToSql.Field.at "t.jsonb" "f") .initial {}).result
      = searchFor (CqlToSql.Field.at "t.jsonb" "f") {} "<->" ["naïv*", "d'été"] ∧
    starsAfterSpace "naïv* * d'été  *".toList = 2 := by
  have halone : StarsStandAlone "naïv* * d'été  *".toList := by decide +kernel
  have hwords : searchWords "naïv* * d'été  *" = ["naïv*", "d'été"] := by decide +kernel
  obtain ⟨hkept, hcount, -⟩ := words_looks_for_searchWords "naïv* * d'été  *" "<->"
    (CqlToSql.Field.at "t.jsonb" "f") .initial {}
  have hresult := (hkept halone).2
  rw [hwords] at hresult
  refine ⟨halone, hwords, hresult, ?_⟩
  rw [hcount (hkept halone).1]
  decide +kernel

/-- A star that starts a longer word after a space joins two words, and one
at the beginning of the term is taken for a word. -/
theorem words_joined_at_star :
    searchWords "abc *def" = ["abc", "*def"] ∧
    (words "abc *def" " | " (CqlToSql.Field.at "t.jsonb" "f") .initial {}).result
      = searchFor (CqlToSql.Field.at "t.jsonb" "f") {} " | " ["abcdef"] ∧
    searchWords "* abc" = ["abc"] ∧
    (words "* abc" " | " (CqlToSql.Field.at "t.jsonb" "f") .initial {}).result
      = searchFor (CqlToSql.Field.at "t.jsonb" "f") {} " | " ["*", "abc"] := by
  have hjoined : Text.words (trim (dropStrayStars "abc *def")) = ["abcdef"] := by decide +kernel
  have hfirst : Text.words (trim (dropStrayStars "* abc")) = ["*", "abc"] := by decide +kernel
  refine ⟨by decide +kernel, ?_, by decide +kernel, ?_⟩
  · rw [result_words (by decide +kernel), hjoined]
  · rw [result_words (by decide +kernel), hfirst]

end CqlToSql.Condition
