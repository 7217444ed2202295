/-
  CqlToSql.Proofs.Sql.Regexp
  ──────────────────────────
  **Regular expressions**, as the operator `~` reads them, and what they match:

      c          this very character, unless it has one of the meanings below
      \c         this very character, unless it is a letter or a digit
      .          any one character
      ^  $       the start and the end of the text
      x* x+ x?   `x` any number of times, at least once, at most once
      (x)        `x` as one part
      xy         `x` and then `y`
      x|y        `x` or `y`, which bind least

  Brackets, bounds, options and the escapes of letters and digits are more than
  the reader knows, and it refuses text with them.  It also refuses what is no
  regular expression: a parenthesis without its partner, a backslash at the end,
  and a quantifier with no part before it that could be repeated.

  The reader takes one character after the other and keeps the groups that are
  open, so that a text is read in steps (`RegexpReader.read_escaped`,
  `RegexpReader.read_taken`).
-/
import CqlToSql.Proofs.Sql.Literal

namespace CqlToSql.Sql

/-! ## §1. Expressions. -/

/-- A regular expression. -/
inductive Regexp where
  | char (c : Char)
  | anyChar
  | start
  | finish
  | group (inner : Regexp)
  /-- At least and at most so many times; without a greatest number, any. -/
  | repeated (inner : Regexp) (least : Nat) (most : Option Nat)
  | empty
  | andThen (first second : Regexp)
  | either (first second : Regexp)
  deriving Repr, DecidableEq

namespace Regexp

/-- The parts one after the other. -/
def sequence : List Regexp → Regexp
  | [] => .empty
  | part :: parts => .andThen part (sequence parts)

/-- One of the branches, each of which is given by its parts. -/
def alternatives : List (List Regexp) → Regexp
  | [] => .empty
  | [branch] => sequence branch
  | branch :: next :: branches => .either (sequence branch) (alternatives (next :: branches))

/-- A quantifier can stand behind it. -/
def isAtom : Regexp → Bool
  | .char _ => true
  | .anyChar => true
  | .group _ => true
  | _ => false

/-- Two branches or more are not one sequence. -/
theorem alternatives_ne_sequence {branches : List (List Regexp)} (h : 2 ≤ branches.length)
    (parts : List Regexp) : alternatives branches ≠ sequence parts := by
  match branches, h with
  | branch :: next :: branches, _ => cases parts <;> simp [alternatives, sequence]

/-! ## §2. Matching. -/

/-- What matches `n` times, one time after the other. -/
def Times (matching : List Char → List Char → List Char → Prop) :
    Nat → List Char → List Char → List Char → Prop
  | 0, _, text, _ => text = []
  | n + 1, before, text, after =>
    ∃ first rest, text = first ++ rest ∧ matching before first (rest ++ after) ∧
      Times matching n (before ++ first) rest after

/-- The expression matches the text where it stands: what is before it and
after it decides whether the text is at an end of the whole. -/
def Matches : Regexp → (before text after : List Char) → Prop
  | .char c, _, text, _ => text = [c]
  | .anyChar, _, text, _ => ∃ c, text = [c]
  | .start, before, text, _ => text = [] ∧ before = []
  | .finish, _, text, after => text = [] ∧ after = []
  | .group inner, before, text, after => inner.Matches before text after
  | .repeated inner least most, before, text, after =>
    ∃ n, least ≤ n ∧ (∀ m, most = some m → n ≤ m) ∧ Times inner.Matches n before text after
  | .empty, _, text, _ => text = []
  | .andThen first second, before, text, after =>
    ∃ s t, text = s ++ t ∧ first.Matches before s (t ++ after) ∧
      second.Matches (before ++ s) t after
  | .either first second, before, text, after =>
    first.Matches before text after ∨ second.Matches before text after

/-- Any one character so many times is any text of that length. -/
theorem times_anyChar_length (before text after : List Char) :
    Times anyChar.Matches text.length before text after := by
  induction text generalizing before with
  | nil => rfl
  | cons c text ih => exact ⟨[c], text, rfl, ⟨c, rfl⟩, ih (before ++ [c])⟩

/-- Any one character any number of times matches every text. -/
theorem matches_anySequence (before text after : List Char) :
    (repeated .anyChar 0 none).Matches before text after :=
  ⟨text.length, Nat.zero_le _, by simp, times_anyChar_length before text after⟩

end Regexp

/-! ## §3. Open groups. -/

/-- A group that is not closed yet, or the whole expression. -/
structure OpenGroup where
  /-- The branches that have ended. -/
  branches : List (List Regexp)
  /-- The parts of the branch that is being read. -/
  parts : List Regexp
  deriving Repr, DecidableEq

namespace OpenGroup

/-- Nothing has been read. -/
def new : OpenGroup := ⟨[], []⟩

/-- The group with one more part. -/
def add (g : OpenGroup) (part : Regexp) : OpenGroup := { g with parts := g.parts ++ [part] }

/-- The group at the start of its next branch. -/
def nextBranch (g : OpenGroup) : OpenGroup := ⟨g.branches ++ [g.parts], []⟩

/-- The group with its last part repeated, if that can be. -/
def repeatLast (g : OpenGroup) (least : Nat) (most : Option Nat) : Option OpenGroup :=
  match g.parts.getLast? with
  | none => none
  | some part =>
    if part.isAtom then some { g with parts := g.parts.dropLast ++ [.repeated part least most] }
    else none

/-- The expression of a group that has ended. -/
def close (g : OpenGroup) : Regexp := .alternatives (g.branches ++ [g.parts])

/-- A part that an atom was added as is repeated. -/
theorem repeatLast_add (g : OpenGroup) {part : Regexp} (h : part.isAtom = true) (least : Nat)
    (most : Option Nat) :
    (g.add part).repeatLast least most = some (g.add (.repeated part least most)) := by
  simp [repeatLast, add, h]

/-- The group after the parts of a branch and, at each bar, a new branch. -/
def addBranches (bar : Regexp) (g : OpenGroup) (parts : List Regexp) : OpenGroup :=
  parts.foldl (fun g part => if part = bar then g.nextBranch else g.add part) g

/-- The branches of a group are what stands between bars. -/
theorem branches_addBranches (bar : Regexp) (g : OpenGroup) (parts : List Regexp) :
    (g.addBranches bar parts).branches ++ [(g.addBranches bar parts).parts]
      = g.branches ++ (parts.splitOn bar).modifyHead (g.parts ++ ·) := by
  rw [List.splitOn_eq_splitOnP]
  induction parts generalizing g with
  | nil => simp [addBranches]
  | cons part parts ih =>
    rw [List.splitOnP_cons_eq_if_modifyHead]
    -- at a bar the parts so far become a branch, and else they grow by one
    by_cases hbar : part = bar
    · have hstep : g.addBranches bar (part :: parts) = g.nextBranch.addBranches bar parts := by
        simp [addBranches, hbar]
      rw [hstep, ih]
      simp only [hbar, nextBranch, beq_self_eq_true, if_true, List.nil_append, List.modifyHead_cons,
        List.append_nil, List.append_assoc, List.cons_append]
      exact congrArg (fun rest => g.branches ++ g.parts :: rest) (congrFun List.modifyHead_id _)
    · have hstep : g.addBranches bar (part :: parts) = (g.add part).addBranches bar parts := by
        simp [addBranches, hbar]
      rw [hstep, ih]
      simp [hbar, add, List.modifyHead_modifyHead, Function.comp_def]

end OpenGroup

/-! ## §4. The reader. -/

/-- What has been read. -/
structure RegexpReader where
  current : OpenGroup
  /-- The groups around the current one, the innermost first. -/
  outer : List OpenGroup
  deriving Repr, DecidableEq

namespace RegexpReader

/-- Nothing has been read. -/
def new : RegexpReader := ⟨.new, []⟩

/-- One more part. -/
def add (r : RegexpReader) (part : Regexp) : RegexpReader := { r with current := r.current.add part }

/-- The end of the current group. -/
def closeGroup (r : RegexpReader) : Option RegexpReader :=
  match r.outer with
  | [] => none
  | g :: outer => some ⟨g.add (.group r.current.close), outer⟩

/-- A quantifier for the last part. -/
def repeatLast (r : RegexpReader) (least : Nat) (most : Option Nat) : Option RegexpReader :=
  (r.current.repeatLast least most).map fun g => { r with current := g }

/-- One more character, which no backslash stands before. -/
def take (r : RegexpReader) (c : Char) : Option RegexpReader :=
  if c = '.' then some (r.add .anyChar)
  else if c = '^' then some (r.add .start)
  else if c = '$' then some (r.add .finish)
  else if c = '*' then r.repeatLast 0 none
  else if c = '+' then r.repeatLast 1 none
  else if c = '?' then r.repeatLast 0 (some 1)
  else if c = '|' then some { r with current := r.current.nextBranch }
  else if c = '(' then some ⟨.new, r.current :: r.outer⟩
  else if c = ')' then r.closeGroup
  else if c ∈ ['[', '\x7b', '\\'] then none
  else some (r.add (.char c))

/-- Behind a backslash the character stands for itself. -/
def isEscapable (c : Char) : Bool := !c.isAlphanum && decide (c.toNat < 128)

/-- The expression at the end of the text, if no group is open. -/
def done (r : RegexpReader) : Option Regexp :=
  match r.outer with
  | [] => some r.current.close
  | _ :: _ => none

/-- Reads on to the end of the text. -/
def read (r : RegexpReader) : List Char → Option Regexp
  | [] => r.done
  | '\\' :: c :: cs => if isEscapable c then (r.add (.char c)).read cs else none
  | c :: cs =>
    match r.take c with
    | some r' => r'.read cs
    | none => none

variable {r r' : RegexpReader} {c : Char}

theorem read_escaped (h : isEscapable c = true) (cs : List Char) :
    r.read ('\\' :: c :: cs) = (r.add (.char c)).read cs := by
  rw [read, if_pos h]

theorem read_taken (hc : c ≠ '\\') (h : r.take c = some r') (cs : List Char) :
    r.read (c :: cs) = r'.read cs := by
  rw [read]
  · rw [h]
  · rintro d ds rfl
    exact absurd rfl hc

end RegexpReader

/-- The regular expression that a text is read as. -/
def readRegexp (text : List Char) : Option Regexp := RegexpReader.new.read text

/-- Alternatives bind less than sequences, and a quantifier belongs to the part
before it. -/
example : readRegexp "(^|b)*\\.|.".toList =
    some (.either
      (.sequence
        [.repeated (.group (.either (.sequence [.start]) (.sequence [.char 'b']))) 0 none,
          .char '.'])
      (.sequence [.anyChar])) := by
  decide

end CqlToSql.Sql
