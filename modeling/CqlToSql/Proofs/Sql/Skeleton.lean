/-
  CqlToSql.Proofs.Sql.Skeleton
  ────────────────────────────
  **Skeletons of SQL text**: the text with a hole in place of every literal.
  What an attacker could change in a statement is its skeleton.

  A form is a skeleton with marked places for one number.  `Fits forms t s`
  says that the skeleton of `s` is one of finitely many forms, with `t` in
  the marked places.
-/
import CqlToSql.Proofs.Sql.Scanner

namespace CqlToSql.Sql

/-! ## §1. Skeletons. -/

/-- A place in a skeleton or a form. -/
inductive Slot where
  /-- A character outside literals. -/
  | char (c : Char)
  /-- The place of a literal. -/
  | hole
  /-- A place for a number. -/
  | number
  deriving Repr, DecidableEq

/-- The place of a part of text. -/
def Mark.slot : Mark → Slot
  | .code c => .char c
  | .literal _ => .hole

/-- The text with a hole in place of every literal. -/
def skeleton (s : String) : List Slot := (marks s).map Mark.slot

/-- A form with the number put into its places. -/
def fill (number : String) (form : List Slot) : List Slot :=
  form.flatMap fun slot =>
    match slot with
    | .number => number.toList.map .char
    | slot => [slot]

/-- The text is scanned up to a character outside literals, or is empty. -/
def EndsInCode (s : String) : Prop := Scan.code.after s.toList = .code

instance (s : String) : Decidable (EndsInCode s) := inferInstanceAs (Decidable (_ = _))

/-- The text starts with a character other than a quote. -/
def StartsInCode (s : String) : Prop := s.toList.head?.any (· ≠ '\'') = true

instance (s : String) : Decidable (StartsInCode s) := inferInstanceAs (Decidable (_ = _))

variable {a b s body : String}

/-! ## §2. Skeletons of joined texts. -/

theorem StartsInCode.exists_cons (h : StartsInCode s) : ∃ c cs, s.toList = c :: cs ∧ c ≠ '\'' := by
  unfold StartsInCode at h
  cases hs : s.toList with
  | nil => simp [hs] at h
  | cons c cs => exact ⟨c, cs, rfl, by simpa [hs] using h⟩

theorem EndsInCode.append_outside (ha : EndsInCode a) (hb : EndsOutside b) :
    EndsOutside (a ++ b) := by
  unfold EndsOutside
  rw [String.toList_append, Scan.after_append, ha]
  exact hb

theorem EndsInCode.append (ha : EndsInCode a) (hb : EndsInCode b) : EndsInCode (a ++ b) := by
  unfold EndsInCode
  rw [String.toList_append, Scan.after_append, ha]
  exact hb

/-- After a literal, one more character brings the scanner back to code. -/
theorem EndsOutside.append_inCode (ha : EndsOutside a) (hs : StartsInCode b) (hb : EndsInCode b) :
    EndsInCode (a ++ b) := by
  obtain ⟨c, cs, hchars, hc⟩ := hs.exists_cons
  unfold EndsInCode EndsOutside at *
  rw [String.toList_append, Scan.after_append]
  cases hscan : Scan.code.after a.toList with
  | code => exact hb
  | literal body => simp [hscan, Scan.inLiteral] at ha
  | quote body =>
    -- the quote before `c` has closed its literal
    simp only [hchars, Scan.after, Scan.next, if_neg hc] at hb ⊢
    exact hb

theorem skeleton_append (ha : EndsOutside a) (hb : StartsInCode b) :
    skeleton (a ++ b) = skeleton a ++ skeleton b := by
  obtain ⟨c, cs, hchars, hc⟩ := hb.exists_cons
  have hhead : b.toList.head? ≠ some '\'' := by simpa [hchars] using hc
  unfold skeleton
  rw [marks_append ha hhead, List.map_append]

theorem EndsInCode.skeleton_append (ha : EndsInCode a) :
    skeleton (a ++ b) = skeleton a ++ skeleton b := by
  unfold skeleton
  rw [marks_append_of_code ha, List.map_append]

/-- Text between a beginning that ends in code and an end that starts there. -/
theorem skeleton_between (ha : EndsInCode a) (hs : EndsOutside s) (hb : StartsInCode b) :
    skeleton (a ++ s ++ b) = skeleton a ++ skeleton s ++ skeleton b := by
  rw [Sql.skeleton_append (ha.append_outside hs) hb, ha.skeleton_append]

/-! ## §3. Skeletons of literals and numbers. -/

/-- The scanner takes a body and the quote behind it as one literal. -/
theorem IsBody.marks_literal {cs : List Char} (h : IsBody cs) (read : List Char) :
    ∃ body, (Scan.literal read).marks (cs ++ ['\'']) = [.literal body] := by
  induction h generalizing read with
  | nil => exact ⟨read, rfl⟩
  | char hc _ ih =>
    rw [List.cons_append, Scan.marks, Scan.next, if_neg hc]
    exact ih _
  | quotes _ ih => exact ih _

/-- A literal is one hole, whatever its body. -/
theorem IsBody.skeleton_literal (h : IsBody body.toList) :
    skeleton (Condition.literal body) = [.hole] := by
  have hchars : (Condition.literal body).toList = '\'' :: (body.toList ++ ['\'']) := by
    simp [Condition.literal]
  obtain ⟨b, hb⟩ := h.marks_literal []
  unfold skeleton marks
  rw [hchars]
  show ((Scan.literal []).marks (body.toList ++ ['\''])).map Mark.slot = _
  rw [hb]
  rfl

/-- Two quotes stay inside their literal. -/
example : skeleton "x='it''s'" = [.char 'x', .char '=', .hole] := by decide

theorem isBody_empty : IsBody "".toList := .nil

theorem skeleton_of_no_quote (h : '\'' ∉ s.toList) : skeleton s = s.toList.map .char := by
  unfold skeleton marks
  rw [Scan.marks_of_no_quote h, List.map_map]
  rfl

/-! ## §4. Forms. -/

theorem fill_append (number : String) (f g : List Slot) :
    fill number (f ++ g) = fill number f ++ fill number g :=
  List.flatMap_append

theorem fill_of_no_number {form : List Slot} (h : .number ∉ form) (number : String) :
    fill number form = form := by
  induction form with
  | nil => rfl
  | cons slot form ih =>
    rw [List.mem_cons, not_or] at h
    have hrest := ih h.2
    unfold fill at hrest ⊢
    rw [List.flatMap_cons, hrest]
    cases slot with
    | number => exact absurd rfl h.1
    | char c => rfl
    | hole => rfl

theorem number_not_mem_skeleton (s : String) : .number ∉ skeleton s := by
  intro h
  obtain ⟨m, -, hm⟩ := List.mem_map.1 h
  cases m <;> cases hm

theorem fill_skeleton (number s : String) : fill number (skeleton s) = skeleton s :=
  fill_of_no_number (number_not_mem_skeleton s) number

/-- The skeleton of the text is one of the forms, with the number in its
places; forms with such places count only if they are allowed. -/
def Fits (forms : List (List Slot)) (allowed : Prop) (number s : String) : Prop :=
  ∃ form ∈ forms, skeleton s = fill number form ∧ (.number ∈ form → allowed)

variable {forms others : List (List Slot)} {allowed : Prop} {number : String}

theorem Fits.of_skeleton (text : String) (hmem : skeleton text ∈ forms)
    (h : skeleton s = skeleton text) : Fits forms allowed number s :=
  ⟨skeleton text, hmem, by rw [fill_skeleton, h],
    fun hn => absurd hn (number_not_mem_skeleton text)⟩

theorem Fits.mono (h : Fits forms allowed number s) (hsub : ∀ form ∈ forms, form ∈ others) :
    Fits others allowed number s := by
  obtain ⟨form, hmem, hs, hn⟩ := h
  exact ⟨form, hsub form hmem, hs, hn⟩

/-- Fixed text around a text that fits. -/
theorem Fits.between (ha : EndsInCode a) (hs : EndsOutside s) (hb : StartsInCode b)
    (h : Fits forms allowed number s) :
    Fits (forms.map fun form => skeleton a ++ form ++ skeleton b) allowed number (a ++ s ++ b) := by
  obtain ⟨form, hmem, hskel, hn⟩ := h
  refine ⟨_, List.mem_map.2 ⟨form, hmem, rfl⟩, ?_, ?_⟩
  · rw [skeleton_between ha hs hb, hskel, fill_append, fill_append, fill_skeleton, fill_skeleton]
  · intro hnumber
    apply hn
    simpa [number_not_mem_skeleton] using hnumber

/-- Two texts that fit, with fixed text between them. -/
theorem Fits.join {x y m : String} (hx : EndsOutside x) (hs : StartsInCode m) (hm : EndsInCode m)
    (hfx : Fits forms allowed number x) (hfy : Fits others allowed number y) :
    Fits (forms.flatMap fun f => others.map fun g => f ++ skeleton m ++ g) allowed number
      (x ++ m ++ y) := by
  obtain ⟨f, hf, hskelx, hnx⟩ := hfx
  obtain ⟨g, hg, hskely, hny⟩ := hfy
  refine ⟨_, List.mem_flatMap.2 ⟨f, hf, List.mem_map.2 ⟨g, hg, rfl⟩⟩, ?_, ?_⟩
  · rw [(hx.append_inCode hs hm).skeleton_append, Sql.skeleton_append hx hs, hskelx, hskely,
      fill_append, fill_append, fill_skeleton]
  · intro hnumber
    simp only [List.mem_append, number_not_mem_skeleton, or_false] at hnumber
    exact hnumber.elim hnx hny

/-- A text that fits has one of the forms as it is, or with an allowed
number. -/
theorem Fits.mem_or (h : Fits forms allowed number s) :
    skeleton s ∈ forms ∨ allowed ∧ ∃ form ∈ forms, skeleton s = fill number form := by
  obtain ⟨form, hmem, hskel, hn⟩ := h
  by_cases hnumber : .number ∈ form
  · exact .inr ⟨hn hnumber, form, hmem, hskel⟩
  · rw [fill_of_no_number hnumber] at hskel
    exact .inl (hskel ▸ hmem)

end CqlToSql.Sql
