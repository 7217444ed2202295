/-
  CqlToSql.Proofs.Sql.Balance
  ───────────────────────────
  **Quotes and parentheses of SQL text.**  A reader of SQL text stands inside
  or outside a literal, in some number of parentheses.  A quote takes it into
  a literal or out of one, a parenthesis counts only outside literals, and one
  that closes nothing stops the reader.

      Leads p s q   — the text `s` takes the reader from `p` to `q`
      Balanced s    — `s` takes a reader outside literals back to where it was
      BalancedInside s
                    — so does `s` for a reader inside a literal

  All of this is for one of two ways to count: quotes and parentheses, or
  quotes alone.  The texts that conditions are put together from are balanced
  in both, whatever search terms they hold.
-/
import CqlToSql.Condition.Comparison
import CqlToSql.Condition.Field
import CqlToSql.Proofs.Text.Characters

namespace CqlToSql.Sql

open CqlToSql.Text

/-! ## §1. Places. -/

/-- Where a reader of SQL text stands. -/
structure Place where
  /-- Inside a literal. -/
  inLiteral : Bool
  /-- Number of open parentheses. -/
  depth : Nat
  deriving Repr, DecidableEq

/-- The place after one more character.  A doubled quote leaves a literal and
enters it again.  Parentheses count if `counted` says so. -/
def Place.next (counted : Bool) (p : Place) (c : Char) : Option Place :=
  if c = '\'' then some { p with inLiteral := !p.inLiteral }
  else if p.inLiteral || !counted then some p
  else if c = '(' then some { p with depth := p.depth + 1 }
  else if c = ')' then
    match p.depth with
    | 0 => none
    | depth + 1 => some { p with depth }
  else some p

/-- The place after some characters, unless a parenthesis closes nothing. -/
def Place.after (counted : Bool) (p : Place) : List Char → Option Place
  | [] => some p
  | c :: cs =>
    match p.next counted c with
    | some q => q.after counted cs
    | none => none

/-- The same place in `k` more parentheses. -/
def Place.deeper (k : Nat) (p : Place) : Place := { p with depth := p.depth + k }

/-- The text takes a reader from one place to the other. -/
def Leads (counted : Bool) (p : Place) (s : String) (q : Place) : Prop :=
  p.after counted s.toList = some q

instance (counted : Bool) (p : Place) (s : String) (q : Place) : Decidable (Leads counted p s q) :=
  inferInstanceAs (Decidable (_ = _))

/-- The text takes a reader back to where it was, inside or outside a literal. -/
def Keeps (counted inLiteral : Bool) (s : String) : Prop :=
  Leads counted ⟨inLiteral, 0⟩ s ⟨inLiteral, 0⟩

instance (counted inLiteral : Bool) (s : String) : Decidable (Keeps counted inLiteral s) :=
  inferInstanceAs (Decidable (Leads _ _ _ _))

/-- Every literal and every parenthesis that the text opens is closed in it. -/
abbrev Balanced (counted : Bool) (s : String) : Prop := Keeps counted false s

/-- The text can stand inside a literal and leaves a reader there. -/
abbrev BalancedInside (counted : Bool) (s : String) : Prop := Keeps counted true s

variable {counted : Bool} {p q r : Place}

/-! ## §2. Reading on. -/

theorem Place.after_append (cs ds : List Char) :
    p.after counted (cs ++ ds) = (p.after counted cs).bind (Place.after counted · ds) := by
  induction cs generalizing p with
  | nil => rfl
  | cons c cs ih =>
    simp only [List.cons_append, Place.after]
    cases p.next counted c with
    | none => rfl
    | some q => exact ih

theorem Leads.append {a b : String} (ha : Leads counted p a q) (hb : Leads counted q b r) :
    Leads counted p (a ++ b) r := by
  unfold Leads at *
  rw [String.toList_append, Place.after_append, ha]
  exact hb

theorem Place.next_deeper (k : Nat) {c : Char} (h : p.next counted c = some q) :
    (p.deeper k).next counted c = some (q.deeper k) := by
  obtain ⟨inLiteral, depth⟩ := p
  unfold Place.next at h ⊢
  cases depth <;> grind [Place.deeper]

theorem Place.after_deeper (k : Nat) {cs : List Char} (h : p.after counted cs = some q) :
    (p.deeper k).after counted cs = some (q.deeper k) := by
  induction cs generalizing p with
  | nil =>
    cases h
    rfl
  | cons c cs ih =>
    unfold Place.after at h ⊢
    cases hn : p.next counted c with
    | none => simp [hn] at h
    | some p' =>
      rw [hn] at h
      rw [Place.next_deeper k hn]
      exact ih h

/-- What a text does at one depth it does `k` parentheses deeper. -/
theorem Leads.deeper (k : Nat) {s : String} (h : Leads counted p s q) :
    Leads counted (p.deeper k) s (q.deeper k) :=
  Place.after_deeper k h

variable {inLiteral : Bool} {a b s : String}

/-- A text that keeps the place does so at every depth. -/
theorem Keeps.at (h : Keeps counted inLiteral s) (k : Nat) :
    Leads counted ⟨inLiteral, k⟩ s ⟨inLiteral, k⟩ := by
  have hk := Leads.deeper k h
  rwa [Place.deeper, Nat.zero_add] at hk

theorem keeps_ofList {cs : List Char} : Keeps counted inLiteral (String.ofList cs) ↔
    Place.after counted ⟨inLiteral, 0⟩ cs = some ⟨inLiteral, 0⟩ := by
  unfold Keeps Leads
  rw [String.toList_ofList]

theorem keeps_nil : Keeps counted inLiteral "" := rfl

theorem Keeps.append (ha : Keeps counted inLiteral a) (hb : Keeps counted inLiteral b) :
    Keeps counted inLiteral (a ++ b) :=
  Leads.append ha hb

theorem Keeps.joinWith {parts : List String} (hs : Keeps counted inLiteral s)
    (h : ∀ part ∈ parts, Keeps counted inLiteral part) :
    Keeps counted inLiteral (Text.joinWith s parts) := by
  fun_induction Text.joinWith s parts with
  | case1 => exact keeps_nil
  | case2 part => exact h part (by simp)
  | case3 part next parts ih =>
    have hpart : Keeps counted inLiteral part := h part (by simp)
    have hrest := ih fun other hother => h other (List.mem_cons_of_mem _ hother)
    exact (hpart.append hs).append hrest

/-- A text between two others that open and close the same parentheses. -/
theorem Balanced.between {k : Nat} (ha : Leads counted ⟨false, 0⟩ a ⟨false, k⟩)
    (hs : Balanced counted s) (hb : Leads counted ⟨false, k⟩ b ⟨false, 0⟩) :
    Balanced counted (a ++ s ++ b) :=
  (ha.append (hs.at k)).append hb

/-! ## §3. Texts that change nothing. -/

theorem Place.next_eq_self {c : Char} (hq : c ≠ '\'') (ho : c ≠ '(') (hc : c ≠ ')') :
    p.next counted c = some p := by
  simp [Place.next, hq, ho, hc]

/-- Inside a literal all but a quote is plain text. -/
theorem Place.next_inside {k : Nat} {c : Char} (hq : c ≠ '\'') :
    Place.next counted ⟨true, k⟩ c = some ⟨true, k⟩ := by
  simp [Place.next, hq]

/-- When only quotes count, all but a quote is plain text. -/
theorem Place.next_uncounted {c : Char} (hq : c ≠ '\'') : p.next false c = some p := by
  simp [Place.next, hq]

theorem Place.after_eq_self {cs : List Char} (h : ∀ c ∈ cs, p.next counted c = some p) :
    p.after counted cs = some p := by
  induction cs with
  | nil => rfl
  | cons c cs ih =>
    rw [Place.after, h c (by simp)]
    exact ih fun d hd => h d (List.mem_cons_of_mem _ hd)

/-- When only quotes count, a text without quotes changes nothing. -/
theorem keeps_of_no_quote (h : '\'' ∉ s.toList) : Keeps false inLiteral s :=
  Place.after_eq_self fun _ hc => Place.next_uncounted fun he => h (he ▸ hc)

/-- A text without quotes and parentheses changes nothing. -/
theorem keeps_of_plain (hq : '\'' ∉ s.toList) (ho : '(' ∉ s.toList) (hc : ')' ∉ s.toList) :
    Keeps counted inLiteral s :=
  Place.after_eq_self fun _ hx =>
    Place.next_eq_self (fun he => hq (he ▸ hx)) (fun he => ho (he ▸ hx)) (fun he => hc (he ▸ hx))

theorem isBlank_plain {c : Char} (h : isBlank c = true) :
    c ≠ '\'' ∧ c ≠ '(' ∧ c ≠ ')' := by
  refine ⟨?_, ?_, ?_⟩ <;>
  · rintro rfl
    revert h
    decide

theorem Place.next_blank {c : Char} (h : isBlank c = true) : p.next counted c = some p := by
  obtain ⟨hq, ho, hc⟩ := isBlank_plain h
  exact Place.next_eq_self hq ho hc

theorem Place.after_dropBlanks (cs : List Char) :
    p.after counted (dropBlanks cs) = p.after counted cs := by
  unfold dropBlanks
  induction cs with
  | nil => rfl
  | cons c cs ih =>
    by_cases hb : isBlank c = true
    · rw [List.dropWhile_cons_of_pos hb, Place.after, Place.next_blank hb]
      exact ih
    · rw [List.dropWhile_cons_of_neg hb]

theorem Place.after_dropFinalBlanks (cs : List Char) :
    p.after counted (dropFinalBlanks cs) = p.after counted cs := by
  induction cs generalizing p with
  | nil => rfl
  | cons c cs ih =>
    unfold dropFinalBlanks
    split
    · rename_i hd
      -- all that follows is blank
      have hrest : ∀ p' : Place, p'.after counted cs = some p' := by
        intro p'
        rw [← ih, hd]
        rfl
      split
      · rename_i hb
        rw [Place.after, Place.after, Place.next_blank hb]
        exact (hrest p).symm
      · simp only [Place.after, hrest]
    · simp only [Place.after, ih]

/-- Blanks at the ends of a text do not matter. -/
theorem Keeps.trim (h : Keeps counted inLiteral s) : Keeps counted inLiteral (trim s) := by
  rw [Text.trim, keeps_ofList, Place.after_dropFinalBlanks, Place.after_dropBlanks]
  exact h

/-! ## §4. Bodies of literals.

    Search terms and names get into literals through functions that double
    quotes or leave them out, or only after a check that finds none. -/

/-- Can be written between quotes as one literal: quotes stand in pairs. -/
inductive IsBody : List Char → Prop where
  | nil : IsBody []
  | char {c : Char} {cs : List Char} (hc : c ≠ '\'') (h : IsBody cs) : IsBody (c :: cs)
  | quotes {cs : List Char} (h : IsBody cs) : IsBody ('\'' :: '\'' :: cs)

theorem IsBody.append {cs ds : List Char} (hc : IsBody cs) (hd : IsBody ds) : IsBody (cs ++ ds) := by
  induction hc with
  | nil => exact hd
  | char hc _ ih => exact .char hc ih
  | quotes _ ih => exact .quotes ih

theorem IsBody.flatMap {α : Type} {f : α → List Char} {xs : List α} (h : ∀ x ∈ xs, IsBody (f x)) :
    IsBody (xs.flatMap f) := by
  induction xs with
  | nil => exact .nil
  | cons x xs ih =>
    rw [List.flatMap_cons]
    exact (h x List.mem_cons_self).append (ih fun y hy => h y (List.mem_cons_of_mem _ hy))

theorem IsBody.of_no_quote {cs : List Char} (h : '\'' ∉ cs) : IsBody cs := by
  induction cs with
  | nil => exact .nil
  | cons c cs ih =>
    rw [List.mem_cons, not_or] at h
    exact .char (Ne.symm h.1) (ih h.2)

theorem IsBody.joinWith {parts : List String} (hs : IsBody s.toList)
    (h : ∀ part ∈ parts, IsBody part.toList) : IsBody (Text.joinWith s parts).toList := by
  fun_induction Text.joinWith s parts with
  | case1 => exact .nil
  | case2 part => exact h part (by simp)
  | case3 part next parts ih =>
    rw [String.toList_append, String.toList_append]
    have hpart : IsBody part.toList := h part (by simp)
    exact (hpart.append hs).append (ih fun other hother => h other (List.mem_cons_of_mem _ hother))

/-- A pair of quotes leaves a literal and enters it again. -/
theorem IsBody.balancedInside (h : IsBody s.toList) : BalancedInside counted s := by
  unfold BalancedInside Keeps Leads
  generalize s.toList = cs at h
  induction h with
  | nil => rfl
  | char hc _ ih =>
    rw [Place.after, Place.next_inside hc]
    exact ih
  | quotes _ ih => exact ih

theorem isBody_doubleQuote (c : Char) : IsBody (Term.doubleQuote c) := by
  unfold Term.doubleQuote
  split
  · exact .quotes .nil
  · rename_i hc
    exact .char hc .nil

theorem isBody_pieceLike (piece : Term.Piece) : IsBody piece.like := by
  cases piece with
  | literal c =>
    simp only [Term.Piece.like]
    split
    · rename_i hs
      -- characters with a backslash in front are not doubled, but none is a quote
      have hc : c ≠ '\'' := by
        rintro rfl
        revert hs
        decide
      exact .char (by decide) (.char hc .nil)
    · exact isBody_doubleQuote c
  | anySequence => exact .of_no_quote (by decide)
  | anyOne => exact .of_no_quote (by decide)
  | anchor => exact .of_no_quote (by decide)
  | loneBackslash => exact .of_no_quote (by decide)

/-- Every search term can stand inside a literal as a pattern. -/
theorem isBody_like (term : String) : IsBody (Term.like term).toList := by
  unfold Term.like
  rw [String.toList_ofList]
  exact .flatMap fun piece _ => isBody_pieceLike piece

theorem isBody_lexemeChar (started : Bool) (c : Char) : IsBody (Term.lexemeChar started c) := by
  unfold Term.lexemeChar
  split
  · -- a quote at the start is left out, and any other is doubled
    cases started
    · exact .nil
    · exact .quotes .nil
  · rename_i hc
    split
    · exact .char (by decide) (.char hc .nil)
    · exact .char hc .nil

theorem isBody_lexemePieces {started : Bool} {pieces : List Term.Piece} {cs : List Char}
    (h : Term.lexemePieces started pieces = .ok cs) : IsBody cs := by
  induction pieces generalizing started cs with
  | nil =>
    cases h
    exact .nil
  | cons piece pieces ih =>
    cases piece with
    | literal c =>
      rw [Term.lexemePieces] at h
      split at h
      · cases h
      · rename_i rest hrest
        cases h
        exact (isBody_lexemeChar started c).append (ih hrest)
    | anySequence =>
      cases pieces with
      | nil =>
        cases h
        exact .of_no_quote (by decide)
      | cons other others => cases h
    | anyOne => cases h
    | anchor => cases h
    | loneBackslash =>
      cases h
      exact .nil

/-- A full text operand can stand inside a literal. -/
theorem isBody_lexeme {word operand : String} (h : Term.lexeme word = .ok operand) :
    IsBody operand.toList := by
  unfold Term.lexeme at h
  cases hp : Term.lexemePieces false (Term.pieces (Text.trim word).toList) with
  | error fault =>
    rw [hp] at h
    cases h
  | ok cs =>
    rw [hp] at h
    cases h
    rw [String.toList_ofList]
    exact isBody_lexemePieces hp

theorem isBody_lexemes {words operands : List String} (h : Condition.lexemes words = .ok operands) :
    ∀ operand ∈ operands, IsBody operand.toList := by
  induction words generalizing operands with
  | nil =>
    cases h
    simp
  | cons word words ih =>
    unfold Condition.lexemes at h
    split at h
    · cases h
    · rename_i l hl
      split at h
      · cases h
      · rename_i ls hls
        cases h
        intro operand hmem
        rcases List.mem_cons.1 hmem with rfl | hmem
        · exact isBody_lexeme hl
        · exact ih hls operand hmem

theorem isBody_doubleQuotes (s : String) : IsBody (Condition.doubleQuotes s).toList := by
  unfold Condition.doubleQuotes
  rw [String.toList_ofList]
  exact .flatMap fun c _ => isBody_doubleQuote c

/-- Every name and value can stand inside a literal as a JSON object. -/
theorem isBody_memberLiteral (name value : String) :
    IsBody (Condition.memberLiteral name value).toList := by
  unfold Condition.memberLiteral
  simp only [String.toList_append]
  have hopen : IsBody "\x7b".toList := .of_no_quote (by decide)
  have hcolon : IsBody ": ".toList := .of_no_quote (by decide)
  have hclose : IsBody "\x7d".toList := .of_no_quote (by decide)
  exact (((hopen.append (isBody_doubleQuotes _)).append hcolon).append
    (isBody_doubleQuotes _)).append hclose

/-- A literal is closed when its body can stand inside it. -/
theorem Balanced.literal (h : BalancedInside counted s) :
    Balanced counted (Condition.literal s) := by
  have hopen : Leads counted ⟨false, 0⟩ "'" ⟨true, 0⟩ := rfl
  have hclose : Leads counted ⟨true, 0⟩ "'" ⟨false, 0⟩ := rfl
  exact (hopen.append h).append hclose

/-! ## §5. Checked texts. -/

theorem keeps_of_isNumeric (h : isNumeric s = true) : Keeps counted inLiteral s :=
  keeps_of_plain (not_mem_of_isNumeric (by decide) (by decide) h)
    (not_mem_of_isNumeric (by decide) (by decide) h)
    (not_mem_of_isNumeric (by decide) (by decide) h)

theorem isBody_of_isUuid (h : isUuid s = true) : IsBody s.toList :=
  .of_no_quote (not_mem_of_isUuid (by decide) (by decide) h)

theorem balanced_of_isIdentifier (h : isIdentifier s = true) : Balanced counted s :=
  keeps_of_plain (not_mem_of_isIdentifier (by decide) h) (not_mem_of_isIdentifier (by decide) h)
    (not_mem_of_isIdentifier (by decide) h)

/-! ## §6. Paths into documents.

    The steps of a path put `'->'` or `'->>'` where the path has a dot.  That
    leaves a literal and enters one again, so for a reader the steps do what
    the path itself does. -/

/-- Writes each part of a path as a literal after an arrow. -/
structure IsSteps (steps : List String → String) : Prop where
  nil : steps [] = ""
  cons : ∀ part parts, ∃ arrow ∈ ["->'", "->>'"],
    steps (part :: parts) = arrow ++ part ++ "'" ++ steps parts

theorem isSteps_textSteps : IsSteps textSteps where
  nil := rfl
  cons part parts := by
    cases parts with
    | nil => exact ⟨"->>'", by decide, by simp [textSteps]⟩
    | cons next parts => exact ⟨"->'", by decide, by simp [textSteps]⟩

theorem isSteps_jsonSteps : IsSteps jsonSteps where
  nil := rfl
  cons part parts := ⟨"->'", by decide, rfl⟩

/-- The place on the other side of a quote. -/
def Place.flip (p : Place) : Place := { p with inLiteral := !p.inLiteral }

theorem leads_quote : Leads counted p "'" p.flip := rfl

theorem leads_arrow {arrow : String} (h : arrow ∈ ["->'", "->>'"]) :
    Leads counted p arrow p.flip := by
  simp only [List.mem_cons, List.not_mem_nil, or_false] at h
  rcases h with rfl | rfl <;> simp [Leads, Place.after, Place.next, Place.flip]

@[simp] theorem Place.flip_flip : p.flip.flip = p := by
  simp [Place.flip]

/-- The steps after the first arrow do what the path does, and close the last
literal. -/
theorem IsSteps.leads {steps : List String → String} (hs : IsSteps steps) {cs : List Char}
    (h : p.after counted cs = some q) {part : List Char} {parts : List (List Char)}
    (hsplit : splitChars '.' cs = part :: parts) :
    Leads counted p (String.ofList part ++ "'" ++ steps (parts.map String.ofList)) q.flip := by
  induction cs generalizing p part parts with
  | nil =>
    cases h
    cases hsplit
    rw [List.map_nil, hs.nil, String.append_empty]
    exact leads_quote
  | cons c cs ih =>
    rw [Place.after] at h
    split at h
    · rename_i p' hn
      cases hrest : splitChars '.' cs with
      | nil => exact absurd hrest (splitChars_ne_nil '.' cs)
      -- the induction is on the path: `next` is what stands before its next dot
      | cons next rest =>
        rw [splitChars, hrest] at hsplit
        by_cases hc : c = '.'
        · rw [if_pos hc] at hsplit
          cases hsplit
          have hp : p' = p := by
            rw [hc, Place.next_eq_self (by decide) (by decide) (by decide)] at hn
            exact (Option.some.inj hn).symm
          subst hp
          -- the dot has become a quote, an arrow and a quote
          obtain ⟨arrow, harrow, hsteps⟩ := hs.cons (String.ofList next) (rest.map String.ofList)
          have hin : Leads counted p'.flip arrow p'.flip.flip := leads_arrow harrow
          rw [Place.flip_flip] at hin
          have hout : Leads counted p' _ q.flip := leads_quote.append (hin.append (ih h hrest))
          rw [List.map_cons, hsteps]
          simpa [String.append_assoc] using hout
        · rw [if_neg hc] at hsplit
          cases hsplit
          have := ih h hrest
          unfold Leads at this ⊢
          simp only [String.toList_append, String.toList_ofList, List.cons_append,
            Place.after, hn] at this ⊢
          exact this
    · cases h

/-- The steps of a path that can stand inside a literal are balanced. -/
theorem IsSteps.balanced {steps : List String → String} (hs : IsSteps steps) {path : String}
    (h : BalancedInside counted path) : Balanced counted (steps (splitAt '.' path)) := by
  cases hsplit : splitChars '.' path.toList with
  | nil => exact absurd hsplit (splitChars_ne_nil '.' path.toList)
  | cons part parts =>
    obtain ⟨arrow, harrow, hsteps⟩ := hs.cons (String.ofList part) (parts.map String.ofList)
    have hrest := hs.leads h hsplit
    have hall : Leads counted ⟨false, 0⟩ _ _ := (leads_arrow harrow).append hrest
    rw [splitAt, hsplit, List.map_cons, hsteps]
    simpa [Keeps, Place.flip, String.append_assoc] using hall

theorem Balanced.textPath {column path : String} (hc : Balanced counted column)
    (hp : BalancedInside counted path) : Balanced counted (textPath column path) :=
  hc.append (isSteps_textSteps.balanced hp)

theorem Balanced.jsonPath {column path : String} (hc : Balanced counted column)
    (hp : BalancedInside counted path) : Balanced counted (jsonPath column path) :=
  hc.append (isSteps_jsonSteps.balanced hp)

/-! ## §7. Folded expressions. -/

theorem Balanced.unaccented (h : Balanced counted s) :
    Balanced counted (Condition.unaccented s) :=
  Balanced.between (k := counted.toNat) (by cases counted <;> decide) h
    (by cases counted <;> decide)

theorem Balanced.lowered (h : Balanced counted s) : Balanced counted (Condition.lowered s) :=
  Balanced.between (k := counted.toNat) (by cases counted <;> decide) h
    (by cases counted <;> decide)

theorem Balanced.folded (f : Condition.Folding) (h : Balanced counted s) :
    Balanced counted (f.apply s) := by
  obtain ⟨lower, unaccent⟩ := f
  cases lower <;> cases unaccent
  · exact h
  · exact h.unaccented
  · exact h.lowered
  · exact h.unaccented.lowered

end CqlToSql.Sql
