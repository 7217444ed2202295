/-
  CqlToSql.Proofs.Sql.Scanner
  ───────────────────────────
  **A scanner of SQL text.**  It tells the characters outside literals from
  the literals.  A quote opens a literal; inside a literal two quotes stand
  for one, and a single quote closes it.  No other character is special.

      marks s          — the text as characters and whole literals
      EndsOutside s    — the scanner is outside literals at the end of `s`

  Text that ends outside literals is scanned apart from what follows it,
  unless that starts with a quote (`marks_append`).
-/
import CqlToSql.Proofs.Sql.Balance

namespace CqlToSql.Sql

/-! ## §1. The scanner. -/

/-- A part of SQL text. -/
inductive Mark where
  /-- A character outside literals. -/
  | code (c : Char)
  /-- A whole literal. -/
  | literal (body : List Char)
  deriving Repr, DecidableEq

/-- What the scanner is in. -/
inductive Scan where
  | code
  /-- A literal with this body so far. -/
  | literal (body : List Char)
  /-- Just behind a quote that ends the literal, or starts a pair. -/
  | quote (body : List Char)
  deriving Repr, DecidableEq

namespace Scan

/-- The parts that one more character completes, and what the scanner is in
after it. -/
def next : Scan → Char → List Mark × Scan
  | .code, c => if c = '\'' then ([], .literal []) else ([.code c], .code)
  | .literal body, c => if c = '\'' then ([], .quote body) else ([], .literal (body ++ [c]))
  | .quote body, c =>
    if c = '\'' then ([], .literal (body ++ [c])) else ([.literal body, .code c], .code)

/-- The parts that the end of the text completes. -/
def finish : Scan → List Mark
  | .code => []
  | .literal body => [.literal body]
  | .quote body => [.literal body]

/-- The parts of the text that follows. -/
def marks (s : Scan) : List Char → List Mark
  | [] => s.finish
  | c :: cs => (s.next c).1 ++ (s.next c).2.marks cs

/-- What the scanner is in after some characters. -/
def after (s : Scan) : List Char → Scan
  | [] => s
  | c :: cs => (s.next c).2.after cs

/-- The scanner is inside a literal. -/
def inLiteral : Scan → Bool
  | .literal _ => true
  | _ => false

end Scan

/-- The parts of a text. -/
def marks (s : String) : List Mark := Scan.code.marks s.toList

/-- The scanner is outside literals at the end of the text. -/
def EndsOutside (s : String) : Prop := (Scan.code.after s.toList).inLiteral = false

instance (s : String) : Decidable (EndsOutside s) := inferInstanceAs (Decidable (_ = _))

/-! ## §2. Scanning on. -/

theorem Scan.after_append (s : Scan) (cs ds : List Char) :
    s.after (cs ++ ds) = (s.after cs).after ds := by
  induction cs generalizing s with
  | nil => rfl
  | cons c cs ih => exact ih _

/-- Outside literals the scanner starts afresh at anything but a quote. -/
theorem Scan.marks_eq_finish_append {s : Scan} (hs : s.inLiteral = false) {ds : List Char}
    (hd : ds.head? ≠ some '\'') : s.marks ds = s.finish ++ Scan.code.marks ds := by
  cases s with
  | code => rfl
  | literal body => cases hs
  | quote body =>
    cases ds with
    | nil => rfl
    | cons d ds =>
      have hq : d ≠ '\'' := by simpa using hd
      simp [Scan.marks, Scan.next, Scan.finish, hq]

theorem Scan.marks_append {s : Scan} {cs ds : List Char} (hs : (s.after cs).inLiteral = false)
    (hd : s.after cs = .code ∨ ds.head? ≠ some '\'') :
    s.marks (cs ++ ds) = s.marks cs ++ Scan.code.marks ds := by
  induction cs generalizing s with
  | nil =>
    rcases hd with hd | hd
    · have hcode : s = .code := hd
      subst hcode
      rfl
    · exact Scan.marks_eq_finish_append hs hd
  | cons c cs ih =>
    rw [List.cons_append, Scan.marks, Scan.marks, ih hs hd, List.append_assoc]

/-- Without quotes all of a text is outside literals. -/
theorem Scan.marks_of_no_quote {cs : List Char} (h : '\'' ∉ cs) :
    Scan.code.marks cs = cs.map .code := by
  induction cs with
  | nil => rfl
  | cons c cs ih =>
    rw [List.mem_cons, not_or] at h
    rw [Scan.marks, Scan.next, if_neg (Ne.symm h.1), List.map_cons, ih h.2]
    rfl

theorem Scan.after_of_no_quote {cs : List Char} (h : '\'' ∉ cs) : Scan.code.after cs = .code := by
  induction cs with
  | nil => rfl
  | cons c cs ih =>
    rw [List.mem_cons, not_or] at h
    rw [Scan.after, Scan.next, if_neg (Ne.symm h.1)]
    exact ih h.2

variable {a b s : String}

theorem marks_append (ha : EndsOutside a) (hb : b.toList.head? ≠ some '\'') :
    marks (a ++ b) = marks a ++ marks b := by
  unfold marks
  rw [String.toList_append]
  exact Scan.marks_append ha (.inr hb)

/-- Behind a character outside literals the scanner starts afresh. -/
theorem marks_append_of_code (ha : Scan.code.after a.toList = .code) :
    marks (a ++ b) = marks a ++ marks b := by
  have hout : (Scan.code.after a.toList).inLiteral = false := by
    rw [ha]
    rfl
  unfold marks
  rw [String.toList_append]
  exact Scan.marks_append hout (.inl ha)

/-! ## §3. Balanced text. -/

/-- The scanner and a reader that counts agree on what is inside literals. -/
theorem Scan.inLiteral_next {counted : Bool} {p q : Place} {scan : Scan} {c : Char}
    (h : p.next counted c = some q) (hs : scan.inLiteral = p.inLiteral) :
    (scan.next c).2.inLiteral = q.inLiteral := by
  obtain ⟨inLiteral, depth⟩ := p
  unfold Place.next at h
  by_cases hc : c = '\''
  · rw [if_pos hc] at h
    cases h
    cases scan <;> simp_all [Scan.next, Scan.inLiteral]
  · rw [if_neg hc] at h
    -- a parenthesis changes the depth alone
    have hq : q.inLiteral = inLiteral := by
      cases depth <;> grind
    rw [hq]
    cases scan <;> simp_all [Scan.next, Scan.inLiteral]

theorem Scan.inLiteral_after {counted : Bool} {p q : Place} {scan : Scan} {cs : List Char}
    (h : p.after counted cs = some q) (hs : scan.inLiteral = p.inLiteral) :
    (scan.after cs).inLiteral = q.inLiteral := by
  induction cs generalizing p scan with
  | nil =>
    cases h
    exact hs
  | cons c cs ih =>
    unfold Place.after at h
    split at h
    · rename_i p' hn
      exact ih h (Scan.inLiteral_next hn hs)
    · cases h

/-- Balanced text ends outside literals. -/
theorem Keeps.endsOutside {counted : Bool} (h : Balanced counted s) : EndsOutside s :=
  Scan.inLiteral_after h rfl

/-- When only quotes count, reading never stops and opens no parenthesis. -/
theorem Place.after_uncounted (inLiteral : Bool) (cs : List Char) :
    ∃ q, Place.after false ⟨inLiteral, 0⟩ cs = some ⟨q, 0⟩ := by
  induction cs generalizing inLiteral with
  | nil => exact ⟨inLiteral, rfl⟩
  | cons c cs ih =>
    rw [Place.after]
    by_cases hc : c = '\''
    · subst hc
      exact ih (!inLiteral)
    · rw [Place.next_uncounted hc]
      exact ih inLiteral

/-- Text that ends outside literals is balanced when only quotes count. -/
theorem EndsOutside.balanced (h : EndsOutside s) : Balanced false s := by
  obtain ⟨q, hq⟩ := Place.after_uncounted false s.toList
  have hplace : (Scan.code.after s.toList).inLiteral = q := Scan.inLiteral_after hq rfl
  rw [h] at hplace
  subst hplace
  exact hq

end CqlToSql.Sql
