/-
  CqlToSql.Proofs.Document.Path
  ─────────────────────────────
  **Paths into documents are read back.**  Behind its column a path is a row of
  steps, each of them an arrow and an SQL literal:

      ->'a'->''->'b->c'      as JSON
      ->'a'->''->>'b->c'     as text

  A literal may hold anything, quotes written twice; no other row of steps is
  written the same (`writtenSteps_inj`).

  Main statement: the steps of a path without quotes are its parts between the
  dots, empty ones too.  All arrows are `->`, but for the last one of the path as
  text, which is `->>`.  The path tells its expression from that of every other
  path in the column (`path_steps_unique`).
-/
import CqlToSql.Document.Path
import CqlToSql.Proofs.Sql.Literal

namespace CqlToSql

open CqlToSql.Text CqlToSql.Sql CqlToSql.Condition

/-! ## §1. Steps as they are written. -/

/-- How a step goes into a document: to a value as JSON or as text. -/
inductive Arrow where
  | json
  | text
  deriving Repr, DecidableEq

/-- The operator of an arrow. -/
def Arrow.sign : Arrow → String
  | .json => "->"
  | .text => "->>"

/-- A step into a document, to the member that its literal stands for. -/
structure PathStep where
  arrow : Arrow
  part : String
  deriving Repr, DecidableEq

/-- The step as SQL. -/
def PathStep.written (s : PathStep) : String := s.arrow.sign ++ literal (doubleQuotes s.part)

/-- One step behind the other. -/
def writtenSteps : List PathStep → String
  | [] => ""
  | s :: steps => s.written ++ writtenSteps steps

variable {s t : PathStep} {steps others : List PathStep} {a b : String}

/-- The characters of a step, up to its closing quote and what follows it. -/
theorem PathStep.toList_written_append (s : PathStep) (a : String) :
    (s.written ++ a).toList
      = s.arrow.sign.toList ++ '\'' :: ((doubleQuotes s.part).toList ++ '\'' :: a.toList) := by
  simp [PathStep.written, literal]

theorem Arrow.sign_cancel {a b : Arrow} {cs ds : List Char}
    (h : a.sign.toList ++ '\'' :: cs = b.sign.toList ++ '\'' :: ds) : a = b ∧ cs = ds := by
  cases a <;> cases b <;> simp_all [Arrow.sign]

/-- A step is read apart from what follows it, if that is not a quote. -/
theorem PathStep.written_cancel (ha : a.toList.head? ≠ some '\'') (hb : b.toList.head? ≠ some '\'')
    (h : s.written ++ a = t.written ++ b) : s = t ∧ a = b := by
  rw [← String.toList_inj, toList_written_append, toList_written_append] at h
  obtain ⟨harrow, hliteral⟩ := Arrow.sign_cancel h
  -- both literals are cut at the same place
  have hcut := congrArg cutLiteral hliteral
  rw [cutLiteral_append (undouble_doubleQuotes s.part) ha,
    cutLiteral_append (undouble_doubleQuotes t.part) hb, Option.some.injEq, Prod.mk.injEq,
    String.toList_inj, String.toList_inj] at hcut
  obtain ⟨hpart, hrest⟩ := hcut
  cases s
  cases t
  cases harrow
  cases hpart
  exact ⟨rfl, hrest⟩

theorem head?_writtenSteps (steps : List PathStep) :
    (writtenSteps steps).toList.head? ≠ some '\'' := by
  cases steps with
  | nil => simp [writtenSteps]
  | cons s steps =>
    rw [writtenSteps, PathStep.toList_written_append]
    cases s.arrow <;> simp [Arrow.sign]

theorem writtenSteps_cons_ne_empty (s : PathStep) (steps : List PathStep) :
    writtenSteps (s :: steps) ≠ "" := by
  intro h
  rw [← String.toList_inj, writtenSteps, PathStep.toList_written_append] at h
  simp at h

/-- No two rows of steps are written the same. -/
theorem writtenSteps_inj : writtenSteps steps = writtenSteps others ↔ steps = others := by
  refine ⟨fun h => ?_, congrArg writtenSteps⟩
  induction steps generalizing others with
  | nil =>
    cases others with
    | nil => rfl
    | cons t others => exact absurd h.symm (writtenSteps_cons_ne_empty t others)
  | cons s steps ih =>
    cases others with
    | nil => exact absurd h (writtenSteps_cons_ne_empty s steps)
    | cons t others =>
      obtain ⟨rfl, hrest⟩ :=
        PathStep.written_cancel (head?_writtenSteps steps) (head?_writtenSteps others) h
      rw [ih hrest]

/-! ## §2. The steps of a path. -/

/-- The steps along the parts of a path, of which the last has an arrow of its
own. -/
def stepsAlong (last : Arrow) : List String → List PathStep
  | [] => []
  | [part] => [⟨last, part⟩]
  | part :: next :: parts => ⟨.json, part⟩ :: stepsAlong last (next :: parts)

theorem stepsAlong_concat (last : Arrow) (front : List String) (final : String) :
    stepsAlong last (front ++ [final]) = front.map (PathStep.mk .json) ++ [⟨last, final⟩] := by
  induction front with
  | nil => rfl
  | cons part front ih =>
    cases front with
    | nil => rfl
    | cons next front =>
      show ⟨.json, part⟩ :: stepsAlong last (next :: front ++ [final]) = _
      rw [ih]
      rfl

theorem map_part_stepsAlong (last : Arrow) (parts : List String) :
    (stepsAlong last parts).map PathStep.part = parts := by
  fun_induction stepsAlong last parts with
  | case1 => rfl
  | case2 => rfl
  | case3 part next parts ih => rw [List.map_cons, ih]

variable {parts : List String}

/-- A part without quotes is written as it is. -/
theorem PathStep.written_of_no_quote (h : '\'' ∉ s.part.toList) :
    s.written = s.arrow.sign ++ literal s.part := by
  have hchar : ∀ c ∈ s.part.toList, Term.doubleQuote c = [c] := by
    intro c hc
    rw [Term.doubleQuote, if_neg]
    rintro rfl
    exact h hc
  have hsame : s.part.toList.flatMap Term.doubleQuote = s.part.toList := by
    rw [List.flatMap_def, List.map_congr_left hchar, ← List.flatMap_def, List.flatMap_singleton']
  rw [PathStep.written, doubleQuotes, hsame, String.ofList_toList]

theorem textSteps_eq_written (h : ∀ part ∈ parts, '\'' ∉ part.toList) :
    textSteps parts = writtenSteps (stepsAlong .text parts) := by
  fun_induction textSteps parts with
  | case1 => rfl
  | case2 part =>
    rw [stepsAlong, writtenSteps, PathStep.written_of_no_quote (h part (by simp))]
    simp [writtenSteps, literal, Arrow.sign, ← String.toList_inj]
  | case3 part next parts ih =>
    rw [stepsAlong, writtenSteps, ← ih fun p hp => h p (List.mem_cons_of_mem _ hp),
      PathStep.written_of_no_quote (h part (by simp))]
    simp [literal, Arrow.sign, ← String.toList_inj]

theorem jsonSteps_eq_written (h : ∀ part ∈ parts, '\'' ∉ part.toList) :
    jsonSteps parts = writtenSteps (stepsAlong .json parts) := by
  fun_induction stepsAlong .json parts with
  | case1 => rfl
  | case2 part =>
    rw [writtenSteps, PathStep.written_of_no_quote (h part (by simp))]
    simp [jsonSteps, writtenSteps, literal, Arrow.sign, ← String.toList_inj]
  | case3 part next parts ih =>
    rw [jsonSteps, writtenSteps, ih fun p hp => h p (List.mem_cons_of_mem _ hp),
      PathStep.written_of_no_quote (h part (by simp))]
    simp [literal, Arrow.sign, ← String.toList_inj]

/-- The path as JSON is one literal, in which arrows take the place of the dots. -/
theorem jsonSteps_eq_joinWith (hne : parts ≠ []) :
    jsonSteps parts = "->'" ++ joinWith "'->'" parts ++ "'" := by
  induction parts with
  | nil => exact absurd rfl hne
  | cons part parts ih =>
    cases parts with
    | nil => simp [jsonSteps, joinWith]
    | cons next parts =>
      rw [jsonSteps, ih (by simp), joinWith]
      simp [← String.toList_inj]

/-! ## §3. Reading a path. -/

/-- Behind the column the text is these steps, and no others. -/
def ReadsAs (column text : String) (steps : List PathStep) : Prop :=
  ∀ others, text = column ++ writtenSteps others ↔ others = steps

theorem readsAs_append (column : String) (steps : List PathStep) :
    ReadsAs column (column ++ writtenSteps steps) steps := by
  intro others
  rw [String.append_right_inj, writtenSteps_inj, eq_comm]

theorem ReadsAs.steps_eq {column text : String} (h : ReadsAs column text steps)
    (h' : ReadsAs column text others) : steps = others :=
  (h' steps).1 ((h steps).2 rfl)

variable {path : String}

theorem readsAs_textPath (column : String) (h : '\'' ∉ path.toList) :
    ReadsAs column (textPath column path) (stepsAlong .text (splitAt '.' path)) := by
  rw [textPath, textSteps_eq_written fun part hpart => not_mem_of_mem_splitAt h hpart]
  exact readsAs_append column _

theorem readsAs_jsonPath (column : String) (h : '\'' ∉ path.toList) :
    ReadsAs column (jsonPath column path) (stepsAlong .json (splitAt '.' path)) := by
  rw [jsonPath, jsonSteps_eq_written fun part hpart => not_mem_of_mem_splitAt h hpart]
  exact readsAs_append column _

/-- Paths that are read as the same parts are the same. -/
theorem eq_of_stepsAlong_splitAt {last : Arrow} {other : String}
    (h : stepsAlong last (splitAt '.' other) = stepsAlong last (splitAt '.' path)) :
    other = path := by
  have hparts := congrArg (List.map PathStep.part) h
  rw [map_part_stepsAlong, map_part_stepsAlong] at hparts
  rw [← joinWith_splitAt other, hparts, joinWith_splitAt]

/-- **A path in a document is read back.**  Its steps are its parts between the
dots, and it tells its expression from that of every other path. -/
theorem path_steps_unique (column : String) {path : String} (h : '\'' ∉ path.toList) :
    (∃ steps, ReadsAs column (jsonPath column path) steps ∧
      steps.map PathStep.part = splitAt '.' path ∧ ∀ s ∈ steps, s.arrow = .json) ∧
    (∃ front final, ReadsAs column (textPath column path) (front ++ [final]) ∧
      (front ++ [final]).map PathStep.part = splitAt '.' path ∧
      (∀ s ∈ front, s.arrow = .json) ∧ final.arrow = .text) ∧
    jsonPath column path = column ++ "->'" ++ String.ofList
      (path.toList.flatMap fun c => if c = '.' then "'->'".toList else [c]) ++ "'" ∧
    ∀ other : String, '\'' ∉ other.toList →
      (jsonPath column other = jsonPath column path → other = path) ∧
      (textPath column other = textPath column path → other = path) ∧
      textPath column other ≠ jsonPath column path := by
  obtain ⟨front, final, hparts⟩ := exists_splitAt_eq_concat '.' path
  have hfront : ∀ s ∈ front.map (PathStep.mk .json), s.arrow = .json := by
    intro s hs
    obtain ⟨part, -, rfl⟩ := List.mem_map.1 hs
    rfl
  refine ⟨⟨_, readsAs_jsonPath column h, map_part_stepsAlong .json _, ?_⟩,
    ⟨front.map (PathStep.mk .json), ⟨.text, final⟩, ?_, ?_, hfront, rfl⟩, ?_, ?_⟩
  · rw [hparts, stepsAlong_concat]
    intro s hs
    rcases List.mem_append.1 hs with hs | hs
    · exact hfront s hs
    · rw [List.mem_singleton.1 hs]
  · rw [← stepsAlong_concat, ← hparts]
    exact readsAs_textPath column h
  · rw [← stepsAlong_concat, ← hparts, map_part_stepsAlong]
  · rw [jsonPath, jsonSteps_eq_joinWith (splitAt_ne_nil '.' path), splitAt, ← toList_joinWith_splitChars,
      String.ofList_toList]
    simp only [String.append_assoc]
  · intro other hother
    refine ⟨fun heq => ?_, fun heq => ?_, fun heq => ?_⟩
    · exact eq_of_stepsAlong_splitAt
        ((heq ▸ readsAs_jsonPath column hother).steps_eq (readsAs_jsonPath column h))
    · exact eq_of_stepsAlong_splitAt
        ((heq ▸ readsAs_textPath column hother).steps_eq (readsAs_textPath column h))
    · -- the last arrows differ
      have hsteps := (heq ▸ readsAs_textPath column hother).steps_eq (readsAs_jsonPath column h)
      obtain ⟨_, _, hother⟩ := exists_splitAt_eq_concat '.' other
      rw [hother, hparts, stepsAlong_concat, stepsAlong_concat] at hsteps
      simpa using congrArg (List.getLast? ·) hsteps

/-- A path with empty parts at its ends and in its middle, and with a part that
looks like a step. -/
theorem path_steps_unique_empty_parts :
    let path := ".a..->>b."
    '\'' ∉ path.toList ∧
    ReadsAs "t.c" (textPath "t.c" path)
      [⟨.json, ""⟩, ⟨.json, "a"⟩, ⟨.json, ""⟩, ⟨.json, "->>b"⟩, ⟨.text, ""⟩] ∧
    jsonPath "t.c" path = "t.c->''->'a'->''->'->>b'->''" := by
  intro path
  have hquote : '\'' ∉ path.toList := by decide
  obtain ⟨-, ⟨front, final, hreads, -⟩, hjson, -⟩ :=
    path_steps_unique "t.c" hquote
  have hsteps := (hreads [⟨.json, ""⟩, ⟨.json, "a"⟩, ⟨.json, ""⟩, ⟨.json, "->>b"⟩, ⟨.text, ""⟩]).1
    (by decide)
  refine ⟨hquote, ?_, hjson.trans (by decide)⟩
  rw [hsteps]
  exact hreads

end CqlToSql
