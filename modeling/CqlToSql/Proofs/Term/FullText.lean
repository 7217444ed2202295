/-
  CqlToSql.Proofs.Term.FullText
  ─────────────────────────────
  **Operands of full text queries mean what words mean.**  A word of a search
  term and an operand of a full text query are both characters with escapes,
  and both can ask for all words with that beginning:

                            word        operand
      this very character   \c or c     \c or c
      any end               * last      :* last

  In a word, `?`, `^` and a star before the end have a meaning that operands
  cannot have, and such words are refused.  In an operand the characters of
  the query language need an escape.

  Main statement: a word without blanks is refused just when it holds one of
  those marks unescaped.  Otherwise its operand, taken out of its literal, is
  read to the end as the characters of the word, less the quotes they start
  with, and asks for any end just when the word does.
-/
import CqlToSql.Proofs.Term.Pattern

namespace CqlToSql.Term

open CqlToSql.Text
open CqlToSql.Sql

/-! ## §1. Words. -/

/-- The text ends in a backslash that escapes the next character.  A backslash
that is escaped itself does not. -/
def endsInEscape (cs : List Char) : Bool :=
  cs.foldl (fun escaped c => !escaped && c == '\\') false

/-- Some character that is not escaped has the property, which may look at what
follows it. -/
def HasUnescaped (p : Char → List Char → Prop) (cs : List Char) : Prop :=
  ∃ before c after, cs = before ++ c :: after ∧ endsInEscape before = false ∧ p c after

/-- A mark that an operand cannot have: a mask of one character, an anchor, or
a star before the end. -/
def IsRefused (c : Char) (after : List Char) : Prop :=
  c = '?' ∨ c = '^' ∨ (c = '*' ∧ after ≠ [])

/-- A star at the end. -/
def IsFinalStar (c : Char) (after : List Char) : Prop := c = '*' ∧ after = []

/-- The characters that a word stands for.  A star at the end is none of them,
nor is a backslash with nothing to escape. -/
def wordCharacters : List Char → List Char
  | [] => []
  | ['\\'] => []
  | ['*'] => []
  | '\\' :: c :: cs => c :: wordCharacters cs
  | c :: cs => c :: wordCharacters cs

variable {p : Char → List Char → Prop}

theorem endsInEscape_cons {c : Char} (hc : c ≠ '\\') (cs : List Char) :
    endsInEscape (c :: cs) = endsInEscape cs := by
  have hescape : (c == '\\') = false := beq_eq_false_iff_ne.2 hc
  simp [endsInEscape, hescape]

theorem endsInEscape_pair (c : Char) (cs : List Char) :
    endsInEscape ('\\' :: c :: cs) = endsInEscape cs := by
  simp [endsInEscape]

theorem not_hasUnescaped_nil : ¬ HasUnescaped p [] := by
  rintro ⟨before, c, after, hcs, -, -⟩
  simp at hcs

theorem hasUnescaped_cons {c : Char} (hc : c ≠ '\\') (cs : List Char) :
    HasUnescaped p (c :: cs) ↔ p c cs ∨ HasUnescaped p cs := by
  constructor
  · rintro ⟨before, d, after, hcs, hescape, hp⟩
    cases before with
    | nil =>
      cases hcs
      exact .inl hp
    | cons e before =>
      cases hcs
      rw [endsInEscape_cons hc] at hescape
      exact .inr ⟨before, d, after, rfl, hescape, hp⟩
  · rintro (hp | ⟨before, d, after, rfl, hescape, hp⟩)
    · exact ⟨[], c, cs, rfl, rfl, hp⟩
    · refine ⟨c :: before, d, after, rfl, ?_, hp⟩
      rw [endsInEscape_cons hc, hescape]

/-- Neither the backslash of an escape nor what it escapes counts. -/
theorem hasUnescaped_pair (hp : ∀ after, ¬ p '\\' after) (c : Char) (cs : List Char) :
    HasUnescaped p ('\\' :: c :: cs) ↔ HasUnescaped p cs := by
  constructor
  · rintro ⟨before, d, after, hcs, hescape, hd⟩
    cases before with
    | nil =>
      cases hcs
      exact absurd hd (hp _)
    | cons e before =>
      cases before with
      | nil =>
        cases hcs
        cases hescape
      | cons f before =>
        cases hcs
        rw [endsInEscape_pair] at hescape
        exact ⟨before, d, after, rfl, hescape, hd⟩
  · rintro ⟨before, d, after, rfl, hescape, hd⟩
    refine ⟨'\\' :: c :: before, d, after, rfl, ?_, hd⟩
    rw [endsInEscape_pair, hescape]

theorem not_hasUnescaped_backslash (hp : ∀ after, ¬ p '\\' after) : ¬ HasUnescaped p ['\\'] := by
  rintro ⟨before, d, after, hcs, -, hd⟩
  cases before with
  | nil =>
    cases hcs
    exact hp _ hd
  | cons e before => simp at hcs

theorem not_isRefused_backslash (after : List Char) : ¬ IsRefused '\\' after := by
  simp [IsRefused]

theorem not_isFinalStar_backslash (after : List Char) : ¬ IsFinalStar '\\' after := by
  simp [IsFinalStar]

/-! ## §2. Operands. -/

/-- The characters with a meaning in a full text query. -/
def queryMarks : List Char := ['&', '!', '|', '(', ')', '<', '>', '*', ':']

/-- Reads an operand of a full text query: its characters, whether it asks for
any end, and the text that is left. -/
def readQueryOperand : List Char → List Char × Bool × List Char
  | [] => ([], false, [])
  | [':', '*'] => ([], true, [])
  | '\\' :: c :: cs => Prod.map (c :: ·) id (readQueryOperand cs)
  | c :: cs =>
    -- any other mark ends the operand, and a backslash needs something to escape
    if c = '\\' ∨ c ∈ queryMarks then ([], false, c :: cs)
    else Prod.map (c :: ·) id (readQueryOperand cs)

theorem readQueryOperand_plain {c : Char} (hbackslash : c ≠ '\\') (hmark : c ∉ queryMarks)
    (cs : List Char) :
    readQueryOperand (c :: cs) = Prod.map (c :: ·) id (readQueryOperand cs) := by
  rw [readQueryOperand]
  · rw [if_neg (by simp [hbackslash, hmark])]
  · rintro rfl
    exact absurd (by decide) hmark
  · rintro d ds rfl
    exact absurd rfl hbackslash

theorem isQuerySpecial_iff {c : Char} : isQuerySpecial c = true ↔ c = '\\' ∨ c ∈ queryMarks := by
  have hmarks : ['&', '!', '|', '(', ')', '<', '>', '*', ':', '\\'] = queryMarks ++ ['\\'] := rfl
  rw [isQuerySpecial, hmarks, List.contains_iff_mem, List.mem_append, List.mem_singleton]
  exact Or.comm

/-! ## §3. Characters. -/

/-- What stands in the operand, taken out of its literal, for a character of
the word. -/
def operandChar (started : Bool) (c : Char) : List Char :=
  if c = '\'' then (if started then ['\''] else [])
  else if isQuerySpecial c then ['\\', c]
  else [c]

/-- The characters that stay when the quotes they start with are left out; once
the operand has `started` they all do. -/
def dropQuotes (started : Bool) (cs : List Char) : List Char :=
  if started then cs else cs.dropWhile (· == '\'')

theorem undouble_lexemeChar (started : Bool) (c : Char) :
    undouble (lexemeChar started c) = some (operandChar started c) := by
  unfold lexemeChar operandChar
  by_cases hquote : c = '\''
  · rw [if_pos hquote, if_pos hquote]
    cases started <;> rfl
  · rw [if_neg hquote, if_neg hquote]
    split
    · rw [undouble_cons (by decide), undouble_cons hquote]
      rfl
    · rw [undouble_cons hquote]
      rfl

/-- A character of the word is read as itself, unless it is one of the quotes at
the start. -/
theorem read_operandChar {started : Bool} {c : Char} {text cs : List Char} {truncated : Bool}
    (h : readQueryOperand text
      = (dropQuotes (started || !(lexemeChar started c).isEmpty) cs, truncated, [])) :
    readQueryOperand (operandChar started c ++ text)
      = (dropQuotes started (c :: cs), truncated, []) := by
  by_cases hquote : c = '\''
  · subst hquote
    cases started with
    | false => exact h
    | true =>
      show readQueryOperand ('\'' :: text) = _
      rw [readQueryOperand_plain (by decide) (by decide), h]
      rfl
  · have hstarted : (started || !(lexemeChar started c).isEmpty) = true := by
      simp only [lexemeChar, if_neg hquote]
      split <;> simp
    have hkept : dropQuotes started (c :: cs) = c :: cs := by
      cases started <;> simp [dropQuotes, hquote]
    rw [hstarted] at h
    rw [hkept, operandChar, if_neg hquote]
    split
    · show readQueryOperand ('\\' :: c :: text) = _
      rw [readQueryOperand, h]
      rfl
    · rename_i hspecial
      rw [isQuerySpecial_iff, not_or] at hspecial
      show readQueryOperand (c :: text) = _
      rw [readQueryOperand_plain hspecial.1 hspecial.2, h]
      rfl

/-! ## §4. Pieces. -/

/-- Taken out of its literal, the operand is read to the end as these
characters, and asks for any end or does not. -/
def ReadsAs (operand cs : List Char) (truncated : Bool) : Prop :=
  ∃ text, undouble operand = some text ∧ readQueryOperand text = (cs, truncated, [])

theorem readsAs_nil (started : Bool) : ReadsAs [] (dropQuotes started []) false := by
  refine ⟨[], rfl, ?_⟩
  cases started <;> rfl

theorem ReadsAs.literal {started truncated : Bool} {c : Char} {rest cs : List Char}
    (h : ReadsAs rest (dropQuotes (started || !(lexemeChar started c).isEmpty) cs) truncated) :
    ReadsAs (lexemeChar started c ++ rest) (dropQuotes started (c :: cs)) truncated := by
  obtain ⟨text, htext, hread⟩ := h
  refine ⟨operandChar started c ++ text, ?_, read_operandChar hread⟩
  rw [undouble_append (undouble_lexemeChar started c), htext]
  rfl

theorem pieces_ne_nil {cs : List Char} (h : cs ≠ []) : pieces cs ≠ [] := by
  fun_cases pieces cs <;> simp_all

theorem lexemePieces_literal_eq_ok {started : Bool} {c : Char} {ps : List Piece}
    {operand : List Char} (h : lexemePieces started (.literal c :: ps) = .ok operand) :
    ∃ rest, lexemePieces (started || !(lexemeChar started c).isEmpty) ps = .ok rest ∧
      operand = lexemeChar started c ++ rest := by
  rw [lexemePieces] at h
  split at h
  · cases h
  · rename_i rest hrest
    cases h
    exact ⟨rest, hrest, rfl⟩

theorem lexemePieces_literal_error_iff (started : Bool) (c : Char) (ps : List Piece) :
    (∃ fault, lexemePieces started (.literal c :: ps) = .error fault) ↔
      ∃ fault, lexemePieces (started || !(lexemeChar started c).isEmpty) ps = .error fault := by
  rw [lexemePieces]
  split
  · rename_i fault hfault
    simp [hfault]
  · rename_i rest hrest
    simp [hrest]

theorem lexemePieces_star_error (started : Bool) {cs : List Char} (h : cs ≠ []) :
    lexemePieces started (.anySequence :: pieces cs) = .error (.query .innerTruncation) := by
  obtain ⟨q, qs, hq⟩ := List.exists_cons_of_ne_nil (pieces_ne_nil h)
  rw [hq, lexemePieces]
  simp

/-- Pieces are refused just when the word holds an unescaped mark that operands
cannot have. -/
theorem lexemePieces_error_iff (started : Bool) (cs : List Char) :
    (∃ fault, lexemePieces started (pieces cs) = .error fault) ↔ HasUnescaped IsRefused cs := by
  fun_induction pieces cs generalizing started with
  | case1 => simp [lexemePieces, not_hasUnescaped_nil]
  | case2 => simp [lexemePieces, not_hasUnescaped_backslash not_isRefused_backslash]
  | case3 c cs ih =>
    rw [lexemePieces_literal_error_iff, ih, hasUnescaped_pair not_isRefused_backslash]
  | case4 c cs hend hpair ih =>
    rw [hasUnescaped_cons (ne_backslash_of_cases hend hpair)]
    unfold Piece.ofChar
    split
    · rename_i hstar
      subst hstar
      -- a star is refused unless the word ends there
      cases cs with
      | nil => simp [pieces, lexemePieces, IsRefused, not_hasUnescaped_nil]
      | cons d ds =>
        rw [lexemePieces_star_error started (List.cons_ne_nil d ds)]
        simp [IsRefused]
    · rename_i hstar
      split
      · rename_i hone
        simp [lexemePieces, IsRefused, hone]
      · rename_i hone
        split
        · rename_i hanchor
          simp [lexemePieces, IsRefused, hanchor]
        · rename_i hanchor
          rw [lexemePieces_literal_error_iff, ih]
          simp [IsRefused, hstar, hone, hanchor]

theorem wordCharacters_cons {c : Char} (hbackslash : c ≠ '\\') (hstar : c ≠ '*')
    (cs : List Char) : wordCharacters (c :: cs) = c :: wordCharacters cs := by
  rw [wordCharacters]
  · rintro rfl
    exact absurd rfl hbackslash
  · rintro rfl
    exact absurd rfl hstar
  · rintro d ds rfl
    exact absurd rfl hbackslash

/-- The operand of a word is read as the characters of that word. -/
theorem exists_readsAs_lexemePieces {started : Bool} {cs operand : List Char}
    (h : lexemePieces started (pieces cs) = .ok operand) :
    ∃ truncated, ReadsAs operand (dropQuotes started (wordCharacters cs)) truncated ∧
      (truncated = true ↔ HasUnescaped IsFinalStar cs) := by
  fun_induction pieces cs generalizing started operand with
  | case1 =>
    cases h
    exact ⟨false, readsAs_nil started, by simp [not_hasUnescaped_nil]⟩
  | case2 =>
    cases h
    exact ⟨false, readsAs_nil started,
      by simp [not_hasUnescaped_backslash not_isFinalStar_backslash]⟩
  | case3 c cs ih =>
    obtain ⟨rest, hrest, rfl⟩ := lexemePieces_literal_eq_ok h
    obtain ⟨truncated, hread, htruncated⟩ := ih hrest
    refine ⟨truncated, ?_, ?_⟩
    · rw [wordCharacters]
      exact hread.literal
    · rw [hasUnescaped_pair not_isFinalStar_backslash, htruncated]
  | case4 c cs hend hpair ih =>
    have hbackslash := ne_backslash_of_cases hend hpair
    unfold Piece.ofChar at h
    split at h
    · rename_i hstar
      subst hstar
      cases cs with
      | nil =>
        cases h
        refine ⟨true, ⟨[':', '*'], rfl, ?_⟩, by simp [hasUnescaped_cons, IsFinalStar]⟩
        cases started <;> rfl
      | cons d ds =>
        rw [lexemePieces_star_error started (List.cons_ne_nil d ds)] at h
        cases h
    · rename_i hstar
      split at h
      · cases h
      · split at h
        · cases h
        · obtain ⟨rest, hrest, rfl⟩ := lexemePieces_literal_eq_ok h
          obtain ⟨truncated, hread, htruncated⟩ := ih hrest
          refine ⟨truncated, ?_, ?_⟩
          · rw [wordCharacters_cons hbackslash hstar]
            exact hread.literal
          · rw [hasUnescaped_cons hbackslash, htruncated]
            simp [IsFinalStar, hstar]

/-! ## §5. Words and their operands. -/

/-- A word without blanks is refused just when it holds one of the marks that
operands cannot have, unescaped: `?`, `^`, or a star before its end.  When it is
not, its operand, taken out of its literal, is read to the end: as the
characters of the word, less the quotes they start with, and as asking for any
end just when the word ends in a star that is not escaped. -/
theorem lexeme_means_word (word : String) (hword : ∀ c ∈ word.toList, isBlank c = false) :
    ((∃ fault, lexeme word = .error fault) ↔ HasUnescaped IsRefused word.toList) ∧
    ∀ operand, lexeme word = .ok operand → ∃ truncated,
      ReadsAs operand.toList ((wordCharacters word.toList).dropWhile (· == '\'')) truncated ∧
      (truncated = true ↔ HasUnescaped IsFinalStar word.toList) := by
  have hlexeme : lexeme word = (lexemePieces false (pieces word.toList)).map String.ofList := by
    rw [lexeme, trim_eq_self hword]
  have hrefused := lexemePieces_error_iff false word.toList
  constructor
  · rw [← hrefused, hlexeme]
    cases lexemePieces false (pieces word.toList) <;> simp [Except.map]
  · intro operand h
    rw [hlexeme] at h
    cases hpieces : lexemePieces false (pieces word.toList) with
    | error fault =>
      rw [hpieces] at h
      cases h
    | ok cs =>
      rw [hpieces] at h
      cases h
      rw [String.toList_ofList]
      exact exists_readsAs_lexemePieces hpieces

/-- Whether a word is free of blanks can be computed. -/
theorem no_blank_of_all {word : String} (h : word.toList.all (!isBlank ·) = true) :
    ∀ c ∈ word.toList, isBlank c = false := by
  simpa using h

/-- A star inside a word is refused.  In `'it\'s(\*)*` the first quote is left
out, the second is escaped and stays, and of the stars only the last, which no
backslash escapes, asks for any end. -/
theorem lexeme_means_word_with_quotes :
    (∃ fault, lexeme "a*b" = .error fault) ∧
      ReadsAs "it''s\\(\\*\\):*".toList "it's(*)".toList true := by
  constructor
  · refine (lexeme_means_word "a*b" (no_blank_of_all (by decide))).1.2 ?_
    refine ⟨['a'], '*', ['b'], by decide, by decide, ?_⟩
    simp [IsRefused]
  · have hok : lexeme "'it\\'s(\\*)*" = .ok "it''s\\(\\*\\):*" := by rfl
    obtain ⟨truncated, hread, hstar⟩ :=
      (lexeme_means_word "'it\\'s(\\*)*" (no_blank_of_all (by decide))).2 _ hok
    have htruncated : truncated = true :=
      hstar.2 ⟨"'it\\'s(\\*)".toList, '*', [], by decide, by decide, rfl, rfl⟩
    rw [htruncated] at hread
    exact hread

end CqlToSql.Term
