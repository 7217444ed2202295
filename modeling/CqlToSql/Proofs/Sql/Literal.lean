/-
  CqlToSql.Proofs.Sql.Literal
  ───────────────────────────
  **Literals and words as they are read.**  Between the quotes of a literal
  two quotes stand for one; `undouble` takes them back to one and refuses a
  quote that stands alone.  A quote that no other follows ends the literal
  (`cutLiteral`).

  The reader takes a word or a literal as one token, whatever stands behind
  it, as long as that does not go on with the word or with the literal
  (`tokens_word_append`, `tokens_quoted_append`).  Text between them is read
  apart from what follows when it ends outside words (`tokens_connector_append`).
-/
import CqlToSql.Proofs.Sql.Reader

namespace CqlToSql.Sql

open CqlToSql.Text

/-! ## §1. Bodies of literals. -/

/-- The text that the body of a literal stands for. -/
def undouble : List Char → Option (List Char)
  | [] => some []
  | '\'' :: '\'' :: cs => (undouble cs).map ('\'' :: ·)
  | c :: cs => if c = '\'' then none else (undouble cs).map (c :: ·)

theorem undouble_cons {c : Char} (hc : c ≠ '\'') (cs : List Char) :
    undouble (c :: cs) = (undouble cs).map (c :: ·) := by
  rw [undouble]
  · rw [if_neg hc]
  · rintro ds rfl
    exact absurd rfl hc

/-- A body is read apart from what is written behind it. -/
theorem undouble_append {cs text : List Char} (h : undouble cs = some text) (ds : List Char) :
    undouble (cs ++ ds) = (undouble ds).map (text ++ ·) := by
  fun_induction undouble cs generalizing text with
  | case1 =>
    cases h
    simp
  | case2 cs ih =>
    obtain ⟨rest, hrest, rfl⟩ := Option.map_eq_some_iff.1 h
    rw [List.cons_append, List.cons_append, undouble, ih hrest, Option.map_map]
    rfl
  | case3 => cases h
  | case4 c cs _ hc ih =>
    obtain ⟨rest, hrest, rfl⟩ := Option.map_eq_some_iff.1 h
    rw [List.cons_append, undouble_cons hc, ih hrest, Option.map_map]
    rfl

theorem undouble_append_some {cs ds text rest : List Char} (hc : undouble cs = some text)
    (hd : undouble ds = some rest) : undouble (cs ++ ds) = some (text ++ rest) := by
  rw [undouble_append hc, hd, Option.map_some]

/-- Bodies written one behind the other stand for their texts in a row. -/
theorem undouble_flatMap {α : Type} {body text : α → List Char}
    (h : ∀ x, undouble (body x) = some (text x)) (xs : List α) :
    undouble (xs.flatMap body) = some (xs.flatMap text) := by
  induction xs with
  | nil => rfl
  | cons x xs ih =>
    rw [List.flatMap_cons, List.flatMap_cons, undouble_append (h x), ih]
    rfl

theorem undouble_doubleQuote (c : Char) : undouble (Term.doubleQuote c) = some [c] := by
  by_cases hc : c = '\''
  · subst hc
    rfl
  · rw [Term.doubleQuote, if_neg hc, undouble_cons hc]
    rfl

/-- A text with its quotes doubled stands for the text. -/
theorem undouble_doubleQuotes (s : String) :
    undouble (Condition.doubleQuotes s).toList = some s.toList := by
  have hflat := undouble_flatMap undouble_doubleQuote s.toList
  rw [List.flatMap_singleton'] at hflat
  rw [Condition.doubleQuotes, String.toList_ofList, hflat]

/-- What a literal stands for and what follows it, in a text that begins behind
its opening quote. -/
def cutLiteral : List Char → Option (List Char × List Char)
  | [] => none
  | '\'' :: '\'' :: cs => (cutLiteral cs).map (Prod.map ('\'' :: ·) id)
  | c :: cs => if c = '\'' then some ([], cs) else (cutLiteral cs).map (Prod.map (c :: ·) id)

/-- A literal ends with a quote that no other quote follows. -/
theorem cutLiteral_append {body text rest : List Char} (hbody : undouble body = some text)
    (hrest : rest.head? ≠ some '\'') :
    cutLiteral (body ++ '\'' :: rest) = some (text, rest) := by
  fun_induction undouble body generalizing text with
  | case1 =>
    cases hbody
    rw [List.nil_append, cutLiteral, if_pos rfl]
    rintro cs - rfl
    exact hrest rfl
  | case2 body ih =>
    obtain ⟨inner, hinner, rfl⟩ := Option.map_eq_some_iff.1 hbody
    rw [List.cons_append, List.cons_append, cutLiteral, ih hinner]
    rfl
  | case3 => cases hbody
  | case4 c body _ hc ih =>
    obtain ⟨inner, hinner, rfl⟩ := Option.map_eq_some_iff.1 hbody
    rw [List.cons_append, cutLiteral, if_neg hc, ih hinner]
    · rfl
    · rintro cs rfl
      exact absurd rfl hc

/-! ## §2. Literals as tokens. -/

variable {body a b : String}

/-- The scanner takes what stands between two quotes as one literal. -/
theorem Scan.marks_literal {cs ds text : List Char} (hc : undouble cs = some text)
    (hd : ds.head? ≠ some '\'') (read : List Char) :
    (Scan.literal read).marks (cs ++ '\'' :: ds)
      = .literal (read ++ text) :: Scan.code.marks ds := by
  fun_induction undouble cs generalizing read text with
  | case1 =>
    cases hc
    show (Scan.quote read).marks ds = _
    rw [Scan.marks_eq_finish_append rfl hd, List.append_nil]
    rfl
  | case2 cs ih =>
    -- two quotes stay in the literal as one
    obtain ⟨rest, hrest, rfl⟩ := Option.map_eq_some_iff.1 hc
    show (Scan.literal (read ++ ['\''])).marks (cs ++ '\'' :: ds) = _
    rw [ih hrest, List.append_assoc]
    rfl
  | case3 => cases hc
  | case4 c cs _ hquote ih =>
    obtain ⟨rest, hrest, rfl⟩ := Option.map_eq_some_iff.1 hc
    rw [List.cons_append, Scan.marks, Scan.next, if_neg hquote]
    show (Scan.literal (read ++ [c])).marks (cs ++ '\'' :: ds) = _
    rw [ih hrest, List.append_assoc]
    rfl

/-- A literal is one token, which stands for its text, unless it is followed by
another quote. -/
theorem tokens_quoted_append {text : List Char} (hbody : undouble body.toList = some text)
    (hb : b.toList.head? ≠ some '\'') :
    tokens (Condition.literal body ++ b) = .quoted text :: tokens b := by
  have hchars : (Condition.literal body ++ b).toList = '\'' :: (body.toList ++ '\'' :: b.toList) := by
    simp [Condition.literal]
  unfold tokens marks
  rw [hchars]
  show ((spaced ((Scan.literal []).marks (body.toList ++ '\'' :: b.toList))).filter _) = _
  rw [Scan.marks_literal hbody hb, List.nil_append]
  show (Token.quoted text :: spaced (Scan.code.marks b.toList)).filter _ = _
  rw [List.filter_cons_of_pos (by simp)]

theorem undouble_of_no_quote {cs : List Char} (h : '\'' ∉ cs) : undouble cs = some cs := by
  induction cs with
  | nil => rfl
  | cons c cs ih =>
    rw [List.mem_cons, not_or] at h
    rw [undouble_cons (Ne.symm h.1), ih h.2]
    rfl

theorem tokens_literal {text : List Char} (hbody : undouble body.toList = some text) :
    tokens (Condition.literal body) = [.quoted text] := by
  have happend := tokens_quoted_append (b := "") hbody (by simp)
  rwa [String.append_empty] at happend

theorem tokens_literal_append (hbody : '\'' ∉ body.toList) (hb : b.toList.head? ≠ some '\'') :
    tokens (Condition.literal body ++ b) = .quoted body.toList :: tokens b :=
  tokens_quoted_append (undouble_of_no_quote hbody) hb

/-! ## §3. Words as tokens. -/

/-- The text is one word of SQL. -/
def IsName (s : String) : Prop := s.toList ≠ [] ∧ s.toList.all isWordChar = true

instance (s : String) : Decidable (IsName s) := inferInstanceAs (Decidable (_ ∧ _))

/-- The text starts with what is neither part of a word nor a quote. -/
def EndsName (s : String) : Prop := s.toList.head?.any (fun c => !isWordChar c && c != '\'') = true

instance (s : String) : Decidable (EndsName s) := inferInstanceAs (Decidable (_ = _))

theorem EndsName.append (h : EndsName a) (b : String) : EndsName (a ++ b) := by
  unfold EndsName at h ⊢
  rw [String.toList_append, List.head?_append]
  cases hhead : a.toList.head? with
  | none => simp [hhead] at h
  | some c => simpa [hhead] using h

/-- A character of a word has no other meaning. -/
theorem isWordChar_plain {c : Char} (h : isWordChar c = true) :
    c ≠ '\'' ∧ c ≠ '(' ∧ c ≠ ')' ∧ isSpace c = false := by
  have hspace : [' ', '\t', '\n', '\r', '\x0b', '\x0c'].all (fun d => !isWordChar d) = true := by
    decide
  refine ⟨?_, ?_, ?_, ?_⟩
  · rintro rfl
    exact absurd h (by decide)
  · rintro rfl
    exact absurd h (by decide)
  · rintro rfl
    exact absurd h (by decide)
  · rw [isSpace, List.contains_eq_mem, decide_eq_false_iff_not]
    intro hmem
    have hno := List.all_eq_true.1 hspace c hmem
    rw [h] at hno
    cases hno

/-- An identifier is a word of SQL. -/
theorem isName_of_isIdentifier {s : String} (h : isIdentifier s = true) : IsName s := by
  have hword : ∀ c, continuesIdentifier c = true → isWordChar c = true := by
    intro c hc
    have hascii : c.toNat < 128 := by
      simp only [continuesIdentifier, startsIdentifier, inRanges, List.any_cons, List.any_nil,
        Bool.or_false, Bool.or_eq_true, Bool.and_eq_true, decide_eq_true_eq] at hc
      omega
    exact ascii_cases (P := fun c => continuesIdentifier c = true → isWordChar c = true) (by decide)
      hascii hc
  unfold isIdentifier at h
  split at h
  · cases h
  · rename_i c cs hs
    simp only [Bool.and_eq_true, List.all_eq_true] at h
    refine ⟨by simp [hs], ?_⟩
    rw [hs, List.all_cons, Bool.and_eq_true, List.all_eq_true]
    exact ⟨hword c (by simp [continuesIdentifier, h.1.1]), fun d hd => hword d (h.2 d hd)⟩

/-- A letter joins the word that it stands before. -/
theorem push_before_word {c : Char} (hc : isWordChar c = true) (letters : List Char)
    (ts : List Token) : push (.code c) (.word letters :: ts) = .word (c :: letters) :: ts := by
  obtain ⟨-, ho, hp, hs⟩ := isWordChar_plain hc
  rw [push, if_neg ho, if_neg hp, if_neg (by simp [hs]), if_pos hc]

/-- Before anything else a letter starts a word. -/
theorem push_before_other {c : Char} (hc : isWordChar c = true) {ts : List Token}
    (ht : ∀ letters rest, ts ≠ .word letters :: rest) : push (.code c) ts = .word [c] :: ts := by
  obtain ⟨-, ho, hp, hs⟩ := isWordChar_plain hc
  rw [push, if_neg ho, if_neg hp, if_neg (by simp [hs]), if_pos hc]
  exact ht

theorem foldr_push_word {cs : List Char} (hne : cs ≠ []) (hcs : ∀ c ∈ cs, isWordChar c = true)
    {ts : List Token} (ht : ∀ letters rest, ts ≠ .word letters :: rest) :
    (cs.map Mark.code).foldr push ts = .word cs :: ts := by
  induction cs with
  | nil => exact absurd rfl hne
  | cons c cs ih =>
    have hc := hcs c (by simp)
    rw [List.map_cons, List.foldr_cons]
    cases cs with
    | nil => exact push_before_other hc ht
    | cons d ds =>
      rw [ih (by simp) fun e he => hcs e (List.mem_cons_of_mem _ he)]
      exact push_before_word hc (d :: ds) ts

/-- What ends a word does not start with one. -/
theorem spaced_ne_word (hb : EndsName b) (letters : List Char) (rest : List Token) :
    spaced (marks b) ≠ .word letters :: rest := by
  unfold EndsName at hb
  unfold marks
  cases hchars : b.toList with
  | nil => simp [hchars] at hb
  | cons c cs =>
    simp only [hchars, List.head?_cons, Option.any_some, Bool.and_eq_true, Bool.not_eq_true',
      bne_iff_ne, ne_eq] at hb
    obtain ⟨hc, hq⟩ := hb
    rw [Scan.marks, Scan.next, if_neg hq]
    show push (.code c) _ ≠ _
    -- outside literals a character that is not of a word is a token of its own
    simp only [push, hc, Bool.false_eq_true, if_false]
    split
    · simp
    · split
      · simp
      · split <;> simp

/-- Text that ends outside literals is read apart from what ends a word. -/
theorem tokens_append (ha : EndsOutside a) (hb : EndsName b) :
    tokens (a ++ b) = tokens a ++ tokens b := by
  have hquote : b.toList.head? ≠ some '\'' := by
    intro hhead
    unfold EndsName at hb
    rw [hhead] at hb
    exact absurd hb (by decide)
  unfold tokens
  rw [marks_append ha hquote, spaced, List.foldr_append, ← spaced,
    foldr_push_append _ (spaced_ne_word hb), List.filter_append]

/-- A word is one token, if what follows ends it. -/
theorem tokens_word_append (ha : IsName a) (hb : EndsName b) :
    tokens (a ++ b) = .word a.toList :: tokens b := by
  obtain ⟨hne, hall⟩ := ha
  have hword : ∀ c ∈ a.toList, isWordChar c = true := List.all_eq_true.1 hall
  have hquote : '\'' ∉ a.toList := fun h => (isWordChar_plain (hword _ h)).1 rfl
  have hcode := Scan.marks_of_no_quote hquote
  have hafter : Scan.code.after a.toList = .code := Scan.after_of_no_quote hquote
  unfold tokens
  rw [marks_append_of_code hafter]
  have hspaced : spaced (marks a ++ marks b) = .word a.toList :: spaced (marks b) := by
    unfold spaced
    rw [List.foldr_append, show marks a = a.toList.map Mark.code from hcode]
    exact foldr_push_word hne hword (spaced_ne_word hb)
  rw [hspaced, List.filter_cons_of_pos (by simp)]

/-! ## §4. Text between words and literals. -/

/-- The text has no literals, and its last character is not part of a word. -/
def IsConnector (s : String) : Prop :=
  '\'' ∉ s.toList ∧ s.toList.getLast?.any (fun c => !isWordChar c) = true

instance (s : String) : Decidable (IsConnector s) := inferInstanceAs (Decidable (_ ∧ _))

/-- Outside words a character is a token of its own. -/
theorem exists_push_eq_cons {c : Char} (hc : isWordChar c = false) :
    ∃ t, (∀ letters, t ≠ .word letters) ∧ ∀ ts, push (.code c) ts = t :: ts := by
  simp only [push, hc, Bool.false_eq_true, if_false]
  split
  · exact ⟨.opening, by simp, fun ts => rfl⟩
  · split
    · exact ⟨.closing, by simp, fun ts => rfl⟩
    · split
      · exact ⟨.blank, by simp, fun ts => rfl⟩
      · exact ⟨.symbol c, by simp, fun ts => rfl⟩

/-- A connector is read apart from what follows it. -/
theorem tokens_connector_append (ha : IsConnector a) (b : String) :
    tokens (a ++ b) = tokens a ++ tokens b := by
  obtain ⟨hquote, hlast⟩ := ha
  have hafter : Scan.code.after a.toList = .code := Scan.after_of_no_quote hquote
  have hcode : marks a = a.toList.map .code := Scan.marks_of_no_quote hquote
  cases hget : a.toList.getLast? with
  | none => simp [hget] at hlast
  | some c =>
    obtain ⟨front, hfront⟩ := List.getLast?_eq_some_iff.1 hget
    have hc : isWordChar c = false := by simpa [hget] using hlast
    obtain ⟨t, ht, hpush⟩ := exists_push_eq_cons hc
    -- the last character is a token by itself, which no letter before it joins
    have hspaced : ∀ ts, (marks a).foldr push ts = spaced (front.map .code) ++ t :: ts := by
      intro ts
      rw [hcode, hfront, List.map_append, List.foldr_append]
      show (front.map Mark.code).foldr push (push (.code c) ts) = _
      rw [hpush]
      exact foldr_push_append _ fun letters rest heq => ht letters (List.cons.inj heq).1
    unfold tokens
    rw [marks_append_of_code hafter]
    show (((marks a ++ marks b).foldr push []).filter _) = ((marks a).foldr push []).filter _ ++ _
    rw [List.foldr_append, hspaced, hspaced, ← List.filter_append, List.append_assoc]
    rfl

end CqlToSql.Sql

namespace CqlToSql

open CqlToSql.Text CqlToSql.Sql CqlToSql.Condition

/-! ## §5. Paths as tokens. -/

/-- The tokens of the steps of a path whose result is text. -/
def stepTokens : List String → List Sql.Token
  | [] => []
  | [part] => [.symbol '-', .symbol '>', .symbol '>', .quoted part.toList]
  | part :: next :: parts =>
    .symbol '-' :: .symbol '>' :: .quoted part.toList :: stepTokens (next :: parts)

variable {parts : List String} {rest : String}

theorem head?_textSteps (hne : parts ≠ []) (rest : String) :
    (textSteps parts ++ rest).toList.head? = some '-' := by
  cases parts with
  | nil => exact absurd rfl hne
  | cons part parts =>
    rw [String.toList_append]
    cases parts with
    | nil => simp [textSteps]
    | cons next parts => simp [textSteps]

theorem tokens_textSteps_append (hparts : ∀ part ∈ parts, '\'' ∉ part.toList)
    (hrest : rest.toList.head? ≠ some '\'') :
    tokens (textSteps parts ++ rest) = stepTokens parts ++ tokens rest := by
  fun_induction textSteps parts with
  | case1 =>
    rw [String.empty_append]
    rfl
  | case2 part =>
    have htext : "->>'" ++ part ++ "'" ++ rest = "->>" ++ (literal part ++ rest) := by
      simp [literal, ← String.toList_inj]
    rw [htext, tokens_connector_append (by decide), tokens_literal_append (hparts part (by simp)) hrest]
    rfl
  | case3 part next parts ih =>
    have htext : "->'" ++ part ++ "'" ++ textSteps (next :: parts) ++ rest =
        "->" ++ (literal part ++ (textSteps (next :: parts) ++ rest)) := by
      simp [literal, ← String.toList_inj]
    have hnext : (textSteps (next :: parts) ++ rest).toList.head? ≠ some '\'' := by
      rw [head?_textSteps (by simp)]
      decide
    rw [htext, tokens_connector_append (by decide),
      tokens_literal_append (hparts part (by simp)) hnext,
      ih fun p hp => hparts p (List.mem_cons_of_mem _ hp)]
    rfl

/-- A path is read apart from the column that it starts from. -/
theorem tokens_textPath {column path : String} (hc : EndsOutside column)
    (hpath : '\'' ∉ path.toList) :
    tokens (textPath column path) = tokens column ++ stepTokens (splitAt '.' path) := by
  have hparts : ∀ part ∈ splitAt '.' path, '\'' ∉ part.toList := fun part hp =>
    not_mem_of_mem_splitAt hpath hp
  have hhead : (textSteps (splitAt '.' path)).toList.head? = some '-' := by
    have happend := head?_textSteps (splitAt_ne_nil '.' path) ""
    rwa [String.append_empty] at happend
  have hends : EndsName (textSteps (splitAt '.' path)) := by
    unfold EndsName
    rw [hhead]
    decide
  have hsteps : tokens (textSteps (splitAt '.' path)) = stepTokens (splitAt '.' path) := by
    have happend : tokens (textSteps (splitAt '.' path) ++ "") = _ :=
      tokens_textSteps_append hparts (by simp)
    rw [String.append_empty] at happend
    rw [happend]
    exact List.append_nil _
  unfold textPath
  rw [tokens_append hc hends, hsteps]

end CqlToSql
