/-
  CqlToSql.Proofs.Query.Tokens
  ────────────────────────────
  **The scanner loses nothing.**  A query text is the spellings of its tokens,
  with blanks before each of them and behind the last one:

      gap₁ spelling₁  gap₂ spelling₂  …  gapₙ spellingₙ  gap

  A word ends at a delimiter and nowhere before, a comparison symbol is the
  longest that stands there, and a quoted term goes on to the first double
  quote that is not escaped.  These rules leave one way to cut a text.

  Main statement: `scan` gives the tokens that a text is written with, each
  with the byte where its spelling starts.  It fails just when an opening
  quote is never closed, and then names the byte of that quote.
-/
import CqlToSql.Proofs.Query.Printing

/-! ## §1. Bytes. -/

namespace CqlToSql.Text

theorem byteLength_append (cs ds : List Char) :
    byteLength (cs ++ ds) = byteLength cs + byteLength ds := by
  induction cs with
  | nil => simp [byteLength]
  | cons c cs ih =>
    show c.utf8Size + byteLength (cs ++ ds) = c.utf8Size + byteLength cs + byteLength ds
    omega

theorem byteLength_pos {cs : List Char} (h : cs ≠ []) : 0 < byteLength cs := by
  obtain ⟨c, ds, rfl⟩ := List.exists_cons_of_ne_nil h
  have hc := c.utf8Size_pos
  show 0 < c.utf8Size + byteLength ds
  omega

/-- Bytes are counted as in the encoded text. -/
theorem utf8ByteSize_ofList (cs : List Char) :
    (String.ofList cs).utf8ByteSize = byteLength cs := by
  induction cs with
  | nil => rfl
  | cons c cs ih =>
    rw [show c :: cs = [c] ++ cs from rfl, String.ofList_append, String.utf8ByteSize_append, ih,
      ← String.singleton_eq_ofList, String.utf8ByteSize_singleton]
    rfl

/-- The bytes of the first characters of a text end between two characters. -/
theorem isValid_byteLength {text : String} {before after : List Char}
    (h : text.toList = before ++ after) :
    String.Pos.Raw.IsValid text ⟨byteLength before⟩ := by
  rw [String.Pos.Raw.isValid_iff_exists_append]
  refine ⟨String.ofList before, String.ofList after, ?_, ?_⟩
  · rw [← String.ofList_append, ← h, String.ofList_toList]
  · rw [← utf8ByteSize_ofList]
    rfl

end CqlToSql.Text

namespace CqlToSql

open CqlToSql.Text

/-! ## §2. Written tokens. -/

/-- The token can stand in front of the text `rest`, so that it ends there:
a word is followed by a delimiter, and no longer symbol stands where a symbol
is read. -/
def Token.StandsBefore (rest : List Char) : Token → Prop
  | .word w => IsWord w ∧ EndsWord rest
  | .quoted s => isQuotable s.toList = true
  | .symbol c => ∀ d : Comparison, d.text.toList <+: c.text.toList ++ rest →
      d.text.toList.length ≤ c.text.toList.length
  | _ => True

/-- Nothing but blanks. -/
def IsGap (cs : List Char) : Prop := ∀ c ∈ cs, isBlank c = true

/-- The text, which starts at byte `position`, is written with these tokens. -/
inductive Written : Nat → List Char → List Located → Prop where
  | gap (position : Nat) {cs : List Char} (h : IsGap cs) : Written position cs []
  | token {position : Nat} {gap rest : List Char} {t : Token} {located : List Located}
      (hgap : IsGap gap) (ht : t.StandsBefore rest)
      (h : Written (position + byteLength gap + byteLength t.spelling) rest located) :
      Written position (gap ++ t.spelling ++ rest)
        ({ token := t, position := position + byteLength gap } :: located)

/-- One more blank in front belongs to the first gap. -/
theorem Written.blank {position : Nat} {c : Char} (hc : isBlank c = true) {cs : List Char}
    {located : List Located} (h : Written (position + c.utf8Size) cs located) :
    Written position (c :: cs) located := by
  have hcons : ∀ {gap}, IsGap gap → IsGap (c :: gap) := by
    intro gap hgap d hd
    rcases List.mem_cons.1 hd with rfl | hd
    · exact hc
    · exact hgap d hd
  cases h with
  | gap _ hcs => exact .gap position (hcons hcs)
  | @token _ gap rest t located hgap ht hrest =>
    have hbytes : position + c.utf8Size + byteLength gap = position + byteLength (c :: gap) := by
      show _ = position + (c.utf8Size + byteLength gap)
      omega
    rw [hbytes] at hrest ⊢
    exact .token (hcons hgap) ht hrest

/-! ## §3. The token at the start of a text. -/

/-- A quoted term is what stands before the first quote that is not escaped. -/
theorem quotedBody_eq_some_iff {cs body rest : List Char} :
    quotedBody cs = some (body, rest) ↔ cs = body ++ '"' :: rest ∧ isQuotable body = true := by
  constructor
  · intro h
    fun_induction quotedBody cs generalizing body with
    | case1 => cases h
    | case2 cs =>
      cases h
      exact ⟨rfl, rfl⟩
    | case3 c cs ih =>
      obtain ⟨⟨b, r⟩, hb, he⟩ := Option.map_eq_some_iff.1 h
      cases he
      obtain ⟨rfl, hquotable⟩ := ih hb
      exact ⟨rfl, hquotable⟩
    | case4 c cs hquote hpair ih =>
      obtain ⟨⟨b, r⟩, hb, he⟩ := Option.map_eq_some_iff.1 h
      cases he
      obtain ⟨rfl, hquotable⟩ := ih hb
      -- a backslash would have taken the next character with it, and there is one
      have hc : c ≠ '\\' := by
        rintro rfl
        cases b with
        | nil => exact hpair _ _ rfl rfl
        | cons d b => exact hpair _ _ rfl rfl
      refine ⟨rfl, ?_⟩
      rw [isQuotable]
      · rw [hquotable, Bool.and_true, bne_iff_ne]
        exact hquote
      · exact fun h _ => hc h
      · exact fun _ _ h _ => hc h
  · rintro ⟨rfl, hquotable⟩
    exact quotedBody_append hquotable rest

/-- A symbol is the longest one that stands there if the text behind it does
not go on with it. -/
theorem standsBefore_symbol_iff {c : Comparison} {rest : List Char} :
    (Token.symbol c).StandsBefore rest ↔ ∀ x ∈ rest.head?, x ∉ c.extensions := by
  constructor
  · intro h x hx hmem
    obtain ⟨tail, rfl⟩ := List.head?_eq_some_iff.1 hx
    have hlonger : ∃ d : Comparison, d.text.toList = c.text.toList ++ [x] := by
      cases c <;> simp [Comparison.extensions] at hmem
      · exact ⟨.exact, by simp [Comparison.text, hmem]⟩
      · rcases hmem with rfl | rfl
        · exact ⟨.atMost, rfl⟩
        · exact ⟨.unequal, rfl⟩
      · exact ⟨.atLeast, by simp [Comparison.text, hmem]⟩
    obtain ⟨d, hd⟩ := hlonger
    have hle := h d ⟨tail, by rw [hd]; simp⟩
    rw [hd, List.length_append, List.length_singleton] at hle
    omega
  · intro h d hd
    by_cases hle : d.text.toList.length ≤ c.text.toList.length
    · exact hle
    · -- a longer symbol is this one with one of its extensions behind it
      have hlonger : ∃ x ∈ c.extensions, d.text.toList = c.text.toList ++ [x] := by
        cases c <;> cases d <;> simp_all [Comparison.text, Comparison.extensions]
      obtain ⟨x, hmem, hx⟩ := hlonger
      rw [hx, List.prefix_append_right_inj] at hd
      obtain ⟨tail, rfl⟩ := hd
      exact absurd hmem (h x rfl)

/-- The first token is spelled at the start of the text and ends where the rest
starts. -/
theorem firstToken_sound {c : Char} {cs rest : List Char} {t : Token} (hc : isBlank c = false)
    (h : firstToken c cs = some (t, rest)) :
    c :: cs = t.spelling ++ rest ∧ t.StandsBefore rest := by
  unfold firstToken at h
  split at h
  case h_11 =>
    obtain ⟨⟨body, after⟩, hbody, he⟩ := Option.map_eq_some_iff.1 h
    cases he
    obtain ⟨rfl, hquotable⟩ := quotedBody_eq_some_iff.1 hbody
    exact ⟨by simp [Token.spelling], by simpa [Token.StandsBefore] using hquotable⟩
  case h_12 hopen hclose hslash hequal hless hgreater hquote _ _ _ _ =>
    cases h
    have hword : isDelimiter c = false :=
      isDelimiter_eq_false_iff.2 ⟨hc, hopen, hclose, hequal, hless, hgreater, hquote, hslash⟩
    refine ⟨by simp [Token.spelling], ⟨by simp [hword], ?_⟩, ?_⟩
    · intro d hd
      rw [String.toList_ofList] at hd
      have hall := List.all_eq_true.1 List.all_takeWhile d hd
      simpa using hall
    · intro d hd
      have hstop := List.head?_dropWhile_not (!isDelimiter ·) (c :: cs)
      rw [Option.mem_def.1 hd] at hstop
      simpa using hstop
  all_goals cases h
  -- of the other tokens, only a symbol of one character depends on the next one
  case h_5 | h_8 | h_10 =>
    refine ⟨rfl, standsBefore_symbol_iff.2 fun x hx hmem => ?_⟩
    obtain ⟨tail, rfl⟩ := List.head?_eq_some_iff.1 hx
    simp_all [Comparison.extensions]
  case h_4 | h_6 | h_7 | h_9 =>
    exact ⟨rfl, standsBefore_symbol_iff.2 fun x _ => by simp [Comparison.extensions]⟩
  all_goals exact ⟨rfl, trivial⟩

/-- A token that can stand before the rest is the first token. -/
theorem firstToken_complete {t : Token} {rest : List Char} (h : t.StandsBefore rest) :
    ∃ c cs, t.spelling ++ rest = c :: cs ∧ isBlank c = false
      ∧ firstToken c cs = some (t, rest) := by
  cases t with
  | openParen => exact ⟨'(', rest, rfl, by decide, rfl⟩
  | closeParen => exact ⟨')', rest, rfl, by decide, rfl⟩
  | slash => exact ⟨'/', rest, rfl, by decide, rfl⟩
  | symbol c => exact firstToken_symbol c (standsBefore_symbol_iff.1 h)
  | word w => exact firstToken_isWord h.1 h.2
  | quoted s =>
    refine ⟨'"', s.toList ++ '"' :: rest, by simp [Token.spelling], by decide, ?_⟩
    show (quotedBody (s.toList ++ '"' :: rest)).map _ = _
    rw [quotedBody_append h]
    simp

/-- Only a quoted term can fail to be a token. -/
theorem firstToken_eq_none {c : Char} {cs : List Char} (h : firstToken c cs = none) :
    c = '"' ∧ quotedBody cs = none := by
  unfold firstToken at h
  split at h
  case h_11 => exact ⟨rfl, Option.map_eq_none_iff.1 h⟩
  all_goals cases h

theorem Token.spelling_ne_nil {t : Token} {rest : List Char} (h : t.StandsBefore rest) :
    t.spelling ≠ [] := by
  cases t with
  | word w => exact h.1.1
  | symbol c => cases c <;> simp [Token.spelling, Comparison.text]
  | openParen | closeParen | slash | quoted _ => simp [Token.spelling]

/-! ## §4. The tokens of a text. -/

/-- The scanner gives tokens that the text is written with. -/
theorem written_of_scanFrom {position : Nat} {cs : List Char} {located : List Located}
    (h : scanFrom position cs = .ok located) : Written position cs located := by
  fun_induction scanFrom position cs generalizing located with
  | case1 position =>
    cases h
    exact .gap position (by simp [IsGap])
  | case2 position c cs hblank ih => exact .blank hblank (ih h)
  | case3 => cases h
  | case4 position c cs hblank t rest hfirst tokens hrest ih =>
    cases h
    obtain ⟨hcs, ht⟩ := firstToken_sound (by simpa using hblank) hfirst
    rw [hcs]
    -- blanks in front have been skipped, so the gap is empty
    have hgap : IsGap [] := by simp [IsGap]
    exact .token hgap ht (ih hrest)
  | case5 => cases h

theorem scanFrom_gap {gap : List Char} (hgap : IsGap gap) (position : Nat) (rest : List Char) :
    scanFrom position (gap ++ rest) = scanFrom (position + byteLength gap) rest := by
  induction gap generalizing position with
  | nil => rfl
  | cons c gap ih =>
    have hc := hgap c List.mem_cons_self
    rw [List.cons_append, scanFrom, if_pos hc, ih (fun d hd => hgap d (List.mem_cons_of_mem _ hd)),
      Nat.add_assoc]
    rfl

/-- What a text is written with, the scanner gives. -/
theorem scanFrom_of_written {position : Nat} {cs : List Char} {located : List Located}
    (h : Written position cs located) : scanFrom position cs = .ok located := by
  induction h with
  | gap position hcs =>
    have hscan := scanFrom_gap hcs position []
    rw [List.append_nil] at hscan
    rw [hscan, scanFrom]
  | token hgap ht _ ih =>
    obtain ⟨c, cs, hcs, hblank, hfirst⟩ := firstToken_complete ht
    rw [List.append_assoc, scanFrom_gap hgap, hcs, scanFrom_token hblank hfirst, ih]
    rfl

/-! ## §5. Where tokens start. -/

/-- The `i`-th token is spelled at the byte that it is located at. -/
theorem Written.exists_spelling {position : Nat} {cs : List Char} {located : List Located}
    (h : Written position cs located) {i : Nat} {l : Located} (hl : located[i]? = some l) :
    ∃ before after, cs = before ++ l.token.spelling ++ after
      ∧ l.position = position + byteLength before := by
  induction h generalizing i with
  | gap => simp at hl
  | @token position gap rest t located hgap ht _ ih =>
    cases i with
    | zero =>
      cases hl
      exact ⟨gap, rest, rfl, rfl⟩
    | succ i =>
      obtain ⟨before, after, rfl, hposition⟩ := ih hl
      refine ⟨gap ++ t.spelling ++ before, after, by simp, ?_⟩
      rw [hposition, byteLength_append, byteLength_append]
      omega

/-- Each token starts behind the one before, and the text ends behind the last. -/
theorem Written.pairwise_positions {position : Nat} {cs : List Char} {located : List Located}
    (h : Written position cs located) :
    (located.map Located.position ++ [position + byteLength cs]).Pairwise (· < ·)
      ∧ ∀ p ∈ located.map Located.position ++ [position + byteLength cs], position ≤ p := by
  induction h with
  | gap => simp
  | @token position gap rest t located hgap ht _ ih =>
    obtain ⟨hpairwise, hle⟩ := ih
    have hpos := byteLength_pos (Token.spelling_ne_nil ht)
    have hbytes : position + byteLength (gap ++ t.spelling ++ rest)
        = position + byteLength gap + byteLength t.spelling + byteLength rest := by
      rw [byteLength_append, byteLength_append]
      omega
    rw [hbytes, List.map_cons, List.cons_append]
    refine ⟨List.Pairwise.cons ?_ hpairwise, ?_⟩
    · intro p hp
      have := hle p hp
      show position + byteLength gap < p
      omega
    · intro p hp
      rcases List.mem_cons.1 hp with rfl | hp
      · show position ≤ position + byteLength gap
        omega
      · have := hle p hp
        omega

theorem getElem?_positions (text : String) {located : List Located} {i : Nat}
    (hi : i ≤ located.length) :
    (located.map Located.position ++ [byteLength text.toList])[i]?
      = some (tokenPosition text located i) := by
  unfold tokenPosition
  rcases Nat.lt_or_eq_of_le hi with hlt | rfl
  · rw [List.getElem?_append_left (by simpa using hlt), List.drop_eq_getElem_cons hlt]
    simp [hlt]
  · simp

/-! ## §6. Quotes that are not closed. -/

/-- Where the text read so far ends: outside of quoted terms, inside one, or
inside one behind a backslash that escapes. -/
inductive Quoting where
  | outside
  | inside
  | escaping
  deriving Repr, DecidableEq

/-- One more character.  Outside of quoted terms a backslash means nothing. -/
def Quoting.next : Quoting → Char → Quoting
  | .outside, c => if c = '"' then .inside else .outside
  | .inside, c => if c = '"' then .outside else if c = '\\' then .escaping else .inside
  | .escaping, _ => .inside

/-- More text. -/
def Quoting.after (q : Quoting) (cs : List Char) : Quoting := cs.foldl Quoting.next q

theorem Quoting.after_append (q : Quoting) (cs ds : List Char) :
    q.after (cs ++ ds) = (q.after cs).after ds :=
  List.foldl_append

/-- Some double quote that is not escaped closes the term that the text goes on
with. -/
def IsClosed (cs : List Char) : Prop :=
  ∃ body rest, cs = body ++ '"' :: rest ∧ isQuotable body = true

theorem not_isClosed_iff {cs : List Char} : ¬ IsClosed cs ↔ quotedBody cs = none := by
  constructor
  · intro h
    cases hbody : quotedBody cs with
    | none => rfl
    | some found => exact absurd ⟨found.1, found.2, quotedBody_eq_some_iff.1 hbody⟩ h
  · rintro h ⟨body, rest, hclosed⟩
    rw [quotedBody_eq_some_iff.2 hclosed] at h
    cases h

/-- Text without double quotes does not lead into a quoted term. -/
theorem Quoting.after_outside {cs : List Char} (h : '"' ∉ cs) :
    Quoting.outside.after cs = .outside := by
  induction cs with
  | nil => rfl
  | cons c cs ih =>
    rw [List.mem_cons, not_or] at h
    show (Quoting.next .outside c).after cs = .outside
    rw [Quoting.next, if_neg (Ne.symm h.1), ih h.2]

/-- What can stand between quotes does not lead out of the term. -/
theorem Quoting.after_inside {cs : List Char} (h : isQuotable cs = true) :
    Quoting.inside.after cs = .inside := by
  fun_induction isQuotable cs with
  | case1 => rfl
  | case2 => cases h
  | case3 c cs ih => exact ih h
  | case4 c cs hend hpair ih =>
    rw [Bool.and_eq_true, bne_iff_ne] at h
    have hc := ne_backslash_of_cases hend hpair
    show (Quoting.next .inside c).after cs = .inside
    rw [Quoting.next, if_neg h.1, if_neg hc, ih h.2]

/-- Only a quote that is not escaped leads out of a quoted term. -/
theorem isClosed_of_after {cs : List Char} (h : Quoting.inside.after cs = .outside) :
    IsClosed cs := by
  refine Classical.byContradiction fun hopen => ?_
  have hnone := not_isClosed_iff.1 hopen
  clear hopen
  fun_induction quotedBody cs with
  | case1 => cases h
  | case2 => cases hnone
  | case3 c cs ih => exact ih h (Option.map_eq_none_iff.1 hnone)
  | case4 c cs hquote hpair ih =>
    have hstep : Quoting.inside.after (c :: cs) = (Quoting.next .inside c).after cs := rfl
    rw [hstep, Quoting.next, if_neg hquote] at h
    by_cases hc : c = '\\'
    · -- a backslash that escapes something was the case before
      subst hc
      cases cs with
      | nil => cases h
      | cons d cs => exact hpair d cs rfl rfl
    · rw [if_neg hc] at h
      exact ih h (Option.map_eq_none_iff.1 hnone)

theorem isBlank_ne_quote {c : Char} (h : isBlank c = true) : c ≠ '"' := by
  rintro rfl
  exact absurd h (by decide)

theorem IsGap.after_outside {gap : List Char} (h : IsGap gap) :
    Quoting.outside.after gap = .outside :=
  Quoting.after_outside fun hquote => isBlank_ne_quote (h _ hquote) rfl

/-- A token leads from outside of quoted terms to outside again. -/
theorem Token.after_spelling {t : Token} {rest : List Char} (h : t.StandsBefore rest) :
    Quoting.outside.after t.spelling = .outside := by
  cases t with
  | openParen | closeParen | slash => rfl
  | symbol c => cases c <;> rfl
  | word w =>
    refine Quoting.after_outside fun hquote => ?_
    have hdelimiter := h.1.2 _ hquote
    exact absurd hdelimiter (by decide)
  | quoted s =>
    show Quoting.inside.after (s.toList ++ ['"']) = .outside
    rw [Quoting.after_append, Quoting.after_inside h]
    rfl

/-- The opening quote at byte `p` of the text is never closed. -/
def UnclosedAt (cs : List Char) (p : Nat) : Prop :=
  ∃ before after, cs = before ++ '"' :: after ∧ byteLength before = p
    ∧ Quoting.outside.after before = .outside ∧ ¬ IsClosed after

/-- The scanner stops at a quote that is not closed. -/
theorem unclosedAt_of_scanFrom {position p : Nat} {cs : List Char}
    (h : scanFrom position cs = .error p) : ∃ n, p = position + n ∧ UnclosedAt cs n := by
  fun_induction scanFrom position cs with
  | case1 => cases h
  | case2 position c cs hblank ih =>
    obtain ⟨n, hp, before, after, rfl, rfl, houtside, hopen⟩ := ih h
    refine ⟨c.utf8Size + byteLength before, by omega, c :: before, after, rfl, rfl, ?_, hopen⟩
    show (Quoting.next .outside c).after before = .outside
    rw [Quoting.next, if_neg (isBlank_ne_quote hblank), houtside]
  | case3 position c cs hblank hfirst =>
    cases h
    obtain ⟨rfl, hopen⟩ := firstToken_eq_none hfirst
    exact ⟨0, rfl, [], cs, rfl, rfl, rfl, not_isClosed_iff.2 hopen⟩
  | case4 => cases h
  | case5 position c cs hblank t rest hfirst fault hrest ih =>
    cases h
    obtain ⟨hcs, ht⟩ := firstToken_sound (by simpa using hblank) hfirst
    obtain ⟨n, hp, before, after, rfl, rfl, houtside, hopen⟩ := ih hrest
    refine ⟨byteLength t.spelling + byteLength before, by omega, t.spelling ++ before, after,
      by rw [hcs, List.append_assoc], byteLength_append _ _, ?_, hopen⟩
    rw [Quoting.after_append, Token.after_spelling ht, houtside]

/-- A text that is written with tokens ends outside of quoted terms. -/
theorem Written.after_outside {position : Nat} {cs : List Char} {located : List Located}
    (h : Written position cs located) : Quoting.outside.after cs = .outside := by
  induction h with
  | gap position hcs => exact hcs.after_outside
  | token hgap ht _ ih =>
    rw [Quoting.after_append, Quoting.after_append, hgap.after_outside, Token.after_spelling ht, ih]

/-- Behind an opening quote that is not closed no text leads outside again. -/
theorem UnclosedAt.not_outside {before after more : List Char}
    (houtside : Quoting.outside.after before = .outside) (hopen : ¬ IsClosed after)
    (hmore : more <+: after) : Quoting.outside.after (before ++ '"' :: more) ≠ .outside := by
  intro h
  rw [Quoting.after_append, houtside] at h
  have hinside : Quoting.inside.after more = .outside := h
  obtain ⟨body, rest, hbody, hquotable⟩ := isClosed_of_after hinside
  obtain ⟨last, rfl⟩ := hmore
  exact hopen ⟨body, rest ++ last, by rw [hbody]; simp, hquotable⟩

/-- Of two places outside of quoted terms with a double quote behind them, the
first is the second if the quote there is never closed. -/
theorem UnclosedAt.eq_nil {before more after after' : List Char}
    (houtside : Quoting.outside.after before = .outside) (hopen : ¬ IsClosed after)
    (houtside' : Quoting.outside.after (before ++ more) = .outside)
    (hrest : '"' :: after = more ++ '"' :: after') : more = [] := by
  cases more with
  | nil => rfl
  | cons c more =>
    rw [List.cons_append, List.cons.injEq] at hrest
    obtain ⟨rfl, hafter⟩ := hrest
    exact absurd houtside' (UnclosedAt.not_outside houtside hopen ⟨_, hafter.symm⟩)

/-- At most one opening quote of a text is never closed. -/
theorem UnclosedAt.unique {cs : List Char} {p p' : Nat} (h : UnclosedAt cs p)
    (h' : UnclosedAt cs p') : p = p' := by
  obtain ⟨before, after, hcs, rfl, houtside, hopen⟩ := h
  obtain ⟨before', after', hcs', rfl, houtside', hopen'⟩ := h'
  rw [hcs] at hcs'
  -- the longer of the two parts would end inside the term that the shorter one opens
  rcases List.append_eq_append_iff.1 hcs' with ⟨more, rfl, hrest⟩ | ⟨more, rfl, hrest⟩
  · rw [UnclosedAt.eq_nil houtside hopen houtside' hrest, List.append_nil]
  · rw [UnclosedAt.eq_nil houtside' hopen' houtside hrest, List.append_nil]

theorem scan_eq_error_iff {text : String} {p : Nat} :
    scan text = .error p ↔ UnclosedAt text.toList p := by
  constructor
  · intro h
    obtain ⟨n, hp, hopen⟩ := unclosedAt_of_scanFrom h
    rwa [hp, Nat.zero_add]
  · intro hopen
    cases hscan : scan text with
    | ok located =>
      have hend := (written_of_scanFrom hscan).after_outside
      obtain ⟨before, after, hcs, -, houtside, hclosed⟩ := hopen
      rw [hcs] at hend
      exact absurd hend (UnclosedAt.not_outside houtside hclosed (List.prefix_refl after))
    | error q =>
      obtain ⟨n, hq, hopen'⟩ := unclosedAt_of_scanFrom hscan
      rw [Nat.zero_add] at hq
      rw [hq, hopen'.unique hopen]

/-! ## §7. The scanner loses nothing. -/

/-- The spelling of the `i`-th token.  Behind the last token stands the end of
the query, which is spelled with nothing. -/
def spellingAt (located : List Located) (i : Nat) : List Char :=
  (located[i]?.map fun l => l.token.spelling).getD []

/-- The `i`-th token is spelled at its byte of the text. -/
theorem Written.exists_spellingAt {text : String} {located : List Located}
    (h : Written 0 text.toList located) {i : Nat} (hi : i ≤ located.length) :
    ∃ before after, text.toList = before ++ spellingAt located i ++ after
      ∧ byteLength before = tokenPosition text located i := by
  unfold spellingAt tokenPosition
  rcases Nat.lt_or_eq_of_le hi with hlt | rfl
  · obtain ⟨before, after, htext, hposition⟩ := h.exists_spelling (List.getElem?_eq_getElem hlt)
    refine ⟨before, after, ?_, ?_⟩
    · simpa [hlt] using htext
    · rw [List.drop_eq_getElem_cons hlt]
      show byteLength before = located[i].position
      omega
  · exact ⟨text.toList, [], by simp, by simp⟩

theorem Written.tokenPosition_lt {text : String} {located : List Located}
    (h : Written 0 text.toList located) {i j : Nat} (hij : i < j) (hj : j ≤ located.length) :
    tokenPosition text located i < tokenPosition text located j := by
  obtain ⟨hpairwise, -⟩ := h.pairwise_positions
  rw [Nat.zero_add] at hpairwise
  have hi : i ≤ located.length := by omega
  obtain ⟨hi', hgeti⟩ := List.getElem?_eq_some_iff.1 (getElem?_positions text hi)
  obtain ⟨hj', hgetj⟩ := List.getElem?_eq_some_iff.1 (getElem?_positions text hj)
  rw [← hgeti, ← hgetj]
  exact List.pairwise_iff_getElem.1 hpairwise i j hi' hj' hij

/-- **The scanner loses nothing.**  It gives the tokens that the text is
written with; behind them the end of the query stands where the text ends.
Their bytes increase and lie between two characters, and there their spellings
start.  Scanning fails just at an opening quote that is never closed. -/
theorem scan_loses_nothing (text : String) :
    (∀ located, scan text = .ok located ↔ Written 0 text.toList located) ∧
    (∀ located, scan text = .ok located →
      tokenPosition text located located.length = text.utf8ByteSize ∧
      (∀ i j, i < j → j ≤ located.length →
        tokenPosition text located i < tokenPosition text located j) ∧
      ∀ i ≤ located.length,
        String.Pos.Raw.IsValid text ⟨tokenPosition text located i⟩ ∧
        ∃ before after, text.toList = before ++ spellingAt located i ++ after ∧
          byteLength before = tokenPosition text located i) ∧
    ∀ p, scan text = .error p ↔ UnclosedAt text.toList p := by
  refine ⟨fun located => ⟨written_of_scanFrom, scanFrom_of_written⟩, ?_,
    fun p => scan_eq_error_iff⟩
  intro located hscan
  have hwritten := written_of_scanFrom hscan
  refine ⟨?_, fun i j => hwritten.tokenPosition_lt, ?_⟩
  · rw [← String.ofList_toList (s := text), utf8ByteSize_ofList]
    simp [tokenPosition]
  · intro i hi
    obtain ⟨before, after, htext, hbytes⟩ := hwritten.exists_spellingAt hi
    refine ⟨?_, before, after, htext, hbytes⟩
    rw [← hbytes]
    rw [List.append_assoc] at htext
    exact isValid_byteLength htext

/-- Whether a text has these tokens can be computed. -/
theorem scan_eq_ok_iff {text : String} {located : List Located} :
    scan text = .ok located ↔ (scan text).toOption = some located := by
  cases scan text <;> simp [Except.toOption]

/-- Two bytes for a letter and for a blank, a symbol of two characters right
behind a word, and an escaped quote; and a text where only an escaped quote
follows the opening one. -/
theorem scan_loses_nothing_beyond_ascii :
    let text := "ä<= \u00a0\"b\\\"c\""
    let located := [⟨.word "ä", 0⟩, ⟨.symbol .atMost, 2⟩, ⟨.quoted "b\\\"c", 7⟩]
    (scan text = .ok located ∧ Written 0 text.toList located ∧
      tokenPosition text located 3 = text.utf8ByteSize ∧
      tokenPosition text located 1 < tokenPosition text located 2 ∧
      String.Pos.Raw.IsValid text ⟨7⟩) ∧
    scan "ä=\"b\\\"" = .error 3 := by
  intro text located
  have hscan : scan text = .ok located := scan_eq_ok_iff.2 (by decide +kernel)
  obtain ⟨hcut, hplaces, -⟩ := scan_loses_nothing text
  obtain ⟨hend, hincrease, hstart⟩ := hplaces located hscan
  refine ⟨⟨hscan, (hcut located).1 hscan, hend, hincrease 1 2 (by decide) (by decide), ?_⟩, ?_⟩
  · exact (hstart 2 (by decide)).1
  · refine ((scan_loses_nothing "ä=\"b\\\"").2.2 3).2 ?_
    exact ⟨['ä', '='], ['b', '\\', '"'], by decide, by decide, by decide,
      not_isClosed_iff.2 (by decide)⟩

end CqlToSql
