/-
  CqlToSql.Proofs.Text.Numeric
  ────────────────────────────
  **What is taken for a numeric constant.**  The grammar, over a class of
  digits:

      constant  =  [sign] amount [exponent]
      amount    =  digits | digits . [digits] | . digits
      exponent  =  (e | E) [sign] digits

  Main statements: the test accepts the constants over the decimal digits of
  all scripts (`isNumeric_iff`), and of these the ones over the digits `0`
  to `9` are those that have no other digit (`isNumericConstant_ascii_iff`).
-/
import CqlToSql.Proofs.Text.Characters

namespace CqlToSql.Text

/-! ## §1. The grammar. -/

/-- One or more digits. -/
def AreDigits (digit : Char → Bool) (cs : List Char) : Prop := cs ≠ [] ∧ ∀ c ∈ cs, digit c = true

/-- A sign, or nothing. -/
def IsSign (cs : List Char) : Prop := cs = [] ∨ cs = ['+'] ∨ cs = ['-']

/-- A number without sign and exponent. -/
inductive IsAmount (digit : Char → Bool) : List Char → Prop where
  | whole {ds : List Char} (hd : AreDigits digit ds) : IsAmount digit ds
  | pointed {ds fs : List Char} (hd : AreDigits digit ds) (hf : ∀ c ∈ fs, digit c = true) :
      IsAmount digit (ds ++ '.' :: fs)
  | fraction {fs : List Char} (hf : AreDigits digit fs) : IsAmount digit ('.' :: fs)

/-- An exponent, or nothing. -/
inductive IsPower (digit : Char → Bool) : List Char → Prop where
  | absent : IsPower digit []
  | present {mark : Char} {sign ds : List Char} (hm : mark = 'e' ∨ mark = 'E') (hs : IsSign sign)
      (hd : AreDigits digit ds) : IsPower digit (mark :: (sign ++ ds))

/-- A number without its sign. -/
def IsUnsignedConstant (digit : Char → Bool) (cs : List Char) : Prop :=
  ∃ amount power, cs = amount ++ power ∧ IsAmount digit amount ∧ IsPower digit power

/-- A numeric constant. -/
def IsNumericConstant (digit : Char → Bool) (cs : List Char) : Prop :=
  ∃ sign rest, cs = sign ++ rest ∧ IsSign sign ∧ IsUnsignedConstant digit rest

variable {digit digit' : Char → Bool} {cs ds rest : List Char} {c : Char}

/-! ## §2. Signs and exponents. -/

/-- What starts with a digit, a point or an exponent mark is no sign. -/
theorem dropSign_of_head (h : ∀ c ∈ cs.head?, c ≠ '+' ∧ c ≠ '-') : dropSign cs = cs := by
  fun_cases dropSign cs with
  | case1 rest => exact absurd rfl (h '+' rfl).1
  | case2 rest => exact absurd rfl (h '-' rfl).2
  | case3 => rfl

/-- A test of what follows an optional sign allows for the sign. -/
theorem dropSign_iff {P : List Char → Prop} (hP : ∀ cs, P cs → ∀ c ∈ cs.head?, c ≠ '+' ∧ c ≠ '-') :
    P (dropSign cs) ↔ ∃ sign rest, cs = sign ++ rest ∧ IsSign sign ∧ P rest := by
  constructor
  · intro h
    unfold dropSign at h
    split at h
    · rename_i rest
      exact ⟨['+'], rest, rfl, .inr (.inl rfl), h⟩
    · rename_i rest
      exact ⟨['-'], rest, rfl, .inr (.inr rfl), h⟩
    · exact ⟨[], cs, rfl, .inl rfl, h⟩
  · rintro ⟨sign, rest, rfl, hsign, hrest⟩
    rcases hsign with rfl | rfl | rfl
    · rw [List.nil_append, dropSign_of_head (hP rest hrest)]
      exact hrest
    · exact hrest
    · exact hrest

theorem isDigits_iff : isDigits cs = true ↔ AreDigits isDecimalDigit cs := by
  unfold isDigits AreDigits
  rw [Bool.and_eq_true, List.all_eq_true]
  simp

/-- No mark of a number is a digit. -/
theorem not_isDecimalDigit_mark (h : c ∈ numericMarks) : isDecimalDigit c = false := by
  have hmarks : numericMarks.all (fun c => !isDecimalDigit c) = true := by decide
  simpa using List.all_eq_true.1 hmarks c h

theorem AreDigits.head_ne_sign (h : AreDigits isDecimalDigit cs) :
    ∀ c ∈ cs.head?, c ≠ '+' ∧ c ≠ '-' := by
  intro c hc
  have hdigit : isDecimalDigit c = true := h.2 c (List.mem_of_mem_head? hc)
  constructor
  · rintro rfl
    exact absurd hdigit (by decide)
  · rintro rfl
    exact absurd hdigit (by decide)

theorem isExponent_iff : isExponent cs = true ↔ IsPower isDecimalDigit cs := by
  cases cs with
  | nil => exact iff_of_true rfl .absent
  | cons mark cs =>
    have hsigned : isDigits (dropSign cs) = true ↔
        ∃ sign ds, cs = sign ++ ds ∧ IsSign sign ∧ AreDigits isDecimalDigit ds := by
      rw [isDigits_iff]
      exact dropSign_iff fun _ => AreDigits.head_ne_sign
    rw [isExponent, Bool.and_eq_true, Bool.or_eq_true, beq_iff_eq, beq_iff_eq, hsigned]
    constructor
    · rintro ⟨hmark, sign, ds, rfl, hsign, hds⟩
      exact .present hmark hsign hds
    · intro h
      cases h with
      | present hmark hsign hds => exact ⟨hmark, _, _, rfl, hsign, hds⟩

/-! ## §3. The test reads the grammar. -/

/-- The digits at the start of a text end where no digit follows. -/
theorem span_digits (hd : ∀ c ∈ ds, digit c = true) (hr : ∀ c ∈ rest.head?, digit c = false) :
    (ds ++ rest).takeWhile digit = ds ∧ (ds ++ rest).dropWhile digit = rest := by
  have hend : rest.takeWhile digit = [] ∧ rest.dropWhile digit = rest := by
    cases rest with
    | nil => exact ⟨rfl, rfl⟩
    | cons c rest =>
      have hc : digit c = false := hr c rfl
      simp [hc]
  rw [List.takeWhile_append_of_pos hd, List.dropWhile_append_of_pos hd, hend.1, hend.2]
  exact ⟨List.append_nil ds, rfl⟩

/-- An exponent starts neither with a digit nor with a point. -/
theorem IsPower.head_not_digit (h : IsPower isDecimalDigit cs) :
    ∀ c ∈ cs.head?, isDecimalDigit c = false ∧ c ≠ '.' := by
  intro c hc
  cases h with
  | absent => cases hc
  | present hmark _ _ =>
    cases hc
    rcases hmark with rfl | rfl
    · exact ⟨by decide, by decide⟩
    · exact ⟨by decide, by decide⟩

/-- With a point, the digits on one of its sides are enough. -/
theorem isUnsignedNumeric_pointed {fs power : List Char} (hd : ∀ c ∈ ds, isDecimalDigit c = true)
    (hf : ∀ c ∈ fs, isDecimalDigit c = true) (hsome : ds ≠ [] ∨ fs ≠ [])
    (hp : IsPower isDecimalDigit power) :
    isUnsignedNumeric (ds ++ '.' :: (fs ++ power)) = true := by
  have hpoint : ∀ c ∈ ('.' :: (fs ++ power)).head?, isDecimalDigit c = false := by
    intro c hc
    cases hc
    decide
  obtain ⟨hwhole, hrest⟩ := span_digits hd hpoint
  obtain ⟨hfraction, hpower⟩ := span_digits hf fun c hc => (hp.head_not_digit c hc).1
  unfold isUnsignedNumeric
  rw [hwhole, hrest]
  show ((!ds.isEmpty || !((fs ++ power).takeWhile isDecimalDigit).isEmpty)
    && isExponent ((fs ++ power).dropWhile isDecimalDigit)) = true
  rw [hfraction, hpower, isExponent_iff.2 hp]
  simpa using hsome

theorem isUnsignedNumeric_whole {power : List Char} (hd : AreDigits isDecimalDigit ds)
    (hp : IsPower isDecimalDigit power) : isUnsignedNumeric (ds ++ power) = true := by
  obtain ⟨hwhole, hrest⟩ := span_digits hd.2 fun c hc => (hp.head_not_digit c hc).1
  unfold isUnsignedNumeric
  rw [hwhole, hrest]
  dsimp only
  split
  · -- what follows the digits would start with a point
    exact absurd rfl (hp.head_not_digit '.' rfl).2
  · rw [isExponent_iff.2 hp]
    simpa using hd.1

theorem isUnsignedNumeric_iff :
    isUnsignedNumeric cs = true ↔ IsUnsignedConstant isDecimalDigit cs := by
  constructor
  · intro h
    have hcut : cs = cs.takeWhile isDecimalDigit ++ cs.dropWhile isDecimalDigit :=
      List.takeWhile_append_dropWhile.symm
    have hwhole : ∀ c ∈ cs.takeWhile isDecimalDigit, isDecimalDigit c = true :=
      List.all_eq_true.1 List.all_takeWhile
    unfold isUnsignedNumeric at h
    dsimp only at h
    split at h
    · rename_i rest hrest
      rw [Bool.and_eq_true, isExponent_iff] at h
      have hfraction : ∀ c ∈ rest.takeWhile isDecimalDigit, isDecimalDigit c = true :=
        List.all_eq_true.1 List.all_takeWhile
      have hcs : cs = (cs.takeWhile isDecimalDigit ++ '.' :: rest.takeWhile isDecimalDigit)
          ++ rest.dropWhile isDecimalDigit := by
        rw [List.append_assoc, List.cons_append, List.takeWhile_append_dropWhile, ← hrest]
        exact hcut
      refine ⟨_, _, hcs, ?_, h.2⟩
      by_cases hnone : cs.takeWhile isDecimalDigit = []
      · -- nothing before the point, so there are digits behind it
        rw [hnone, List.nil_append]
        refine .fraction ⟨?_, hfraction⟩
        simpa [hnone] using h.1
      · exact .pointed ⟨hnone, hwhole⟩ hfraction
    · rw [Bool.and_eq_true, isExponent_iff] at h
      refine ⟨_, _, hcut, .whole ⟨?_, hwhole⟩, h.2⟩
      simpa using h.1
  · rintro ⟨amount, power, rfl, hamount, hpower⟩
    cases hamount with
    | whole hd => exact isUnsignedNumeric_whole hd hpower
    | pointed hd hf =>
      rw [List.append_assoc, List.cons_append]
      exact isUnsignedNumeric_pointed hd.2 hf (.inl hd.1) hpower
    | fraction hf =>
      have hnone : ∀ c ∈ ([] : List Char), isDecimalDigit c = true := by simp
      exact isUnsignedNumeric_pointed hnone hf.2 (.inr hf.1) hpower

theorem IsUnsignedConstant.head_ne_sign (h : IsUnsignedConstant isDecimalDigit cs) :
    ∀ c ∈ cs.head?, c ≠ '+' ∧ c ≠ '-' := by
  obtain ⟨amount, power, rfl, hamount, -⟩ := h
  -- an amount is not empty and starts with a digit or with its point
  have hstart : ∀ {ds : List Char} (more : List Char), AreDigits isDecimalDigit ds →
      ∀ c ∈ (ds ++ more).head?, c ≠ '+' ∧ c ≠ '-' := by
    intro ds more hds c hc
    obtain ⟨first, others, rfl⟩ := List.exists_cons_of_ne_nil hds.1
    exact hds.head_ne_sign c hc
  cases hamount with
  | whole hd => exact hstart power hd
  | pointed hd hf =>
    rw [List.append_assoc]
    exact hstart _ hd
  | fraction hf =>
    intro c hc
    cases hc
    exact ⟨by decide, by decide⟩

/-- The test accepts the constants over the decimal digits of all scripts. -/
theorem isNumeric_iff {s : String} :
    isNumeric s = true ↔ IsNumericConstant isDecimalDigit s.toList := by
  unfold isNumeric
  rw [isUnsignedNumeric_iff]
  exact dropSign_iff fun _ => IsUnsignedConstant.head_ne_sign

/-! ## §4. Digits of other scripts. -/

theorem isDecimalDigit_of_isDigit (h : c.isDigit = true) : isDecimalDigit c = true := by
  have hascii : c.toNat < 128 := by
    simp only [Char.isDigit, Bool.and_eq_true, decide_eq_true_eq] at h
    have hle : c.val ≤ 57 := h.2
    have hle : c.toNat ≤ 57 := UInt32.le_iff_toNat_le.1 hle
    omega
  exact ascii_cases (P := fun c => c.isDigit = true → isDecimalDigit c = true) (by decide) hascii h

theorem AreDigits.mono (h : AreDigits digit ds)
    (hmono : ∀ c ∈ ds, digit c = true → digit' c = true) : AreDigits digit' ds :=
  ⟨h.1, fun c hc => hmono c hc (h.2 c hc)⟩

/-- A constant over some digits is one over others, if its digits are among
them. -/
theorem IsNumericConstant.mono (h : IsNumericConstant digit cs)
    (hmono : ∀ c ∈ cs, digit c = true → digit' c = true) : IsNumericConstant digit' cs := by
  obtain ⟨sign, -, rfl, hsign, amount, power, rfl, hamount, hpower⟩ := h
  have hin : ∀ c, c ∈ amount ∨ c ∈ power → digit c = true → digit' c = true := by
    intro c hc
    refine hmono c (List.mem_append_right sign (List.mem_append.2 hc))
  refine ⟨sign, _, rfl, hsign, amount, power, rfl, ?_, ?_⟩
  · cases hamount with
    | whole hd => exact .whole (hd.mono fun c hc => hin c (.inl hc))
    | pointed hd hf =>
      refine .pointed (hd.mono fun c hc => hin c (.inl ?_)) fun c hc => hin c (.inl ?_) (hf c hc)
      · exact List.mem_append_left _ hc
      · exact List.mem_append_right _ (List.mem_cons_of_mem _ hc)
    | fraction hf => exact .fraction (hf.mono fun c hc => hin c (.inl (List.mem_cons_of_mem _ hc)))
  · cases hpower with
    | absent => exact .absent
    | present hm hs hd =>
      refine .present hm hs (hd.mono fun c hc => hin c (.inr ?_))
      exact List.mem_cons_of_mem _ (List.mem_append_right _ hc)

/-- A constant is made of digits and of the marks of a number. -/
theorem IsNumericConstant.digit_or_mark (h : IsNumericConstant digit cs) (hc : c ∈ cs) :
    digit c = true ∨ c ∈ numericMarks := by
  have hsigns : ∀ {sign : List Char}, IsSign sign → c ∈ sign → c ∈ numericMarks := by
    rintro sign (rfl | rfl | rfl) hmem
    · cases hmem
    · rw [List.mem_singleton.1 hmem]
      decide
    · rw [List.mem_singleton.1 hmem]
      decide
  have hpoint : '.' ∈ numericMarks := by decide
  obtain ⟨sign, -, rfl, hsign, amount, power, rfl, hamount, hpower⟩ := h
  rcases List.mem_append.1 hc with hc | hc
  · exact .inr (hsigns hsign hc)
  · rcases List.mem_append.1 hc with hc | hc
    · cases hamount with
      | whole hd => exact .inl (hd.2 c hc)
      | pointed hd hf =>
        rcases List.mem_append.1 hc with hc | hc
        · exact .inl (hd.2 c hc)
        · rcases List.mem_cons.1 hc with rfl | hc
          · exact .inr hpoint
          · exact .inl (hf c hc)
      | fraction hf =>
        rcases List.mem_cons.1 hc with rfl | hc
        · exact .inr hpoint
        · exact .inl (hf.2 c hc)
    · cases hpower with
      | absent => cases hc
      | present hm hs hd =>
        rcases List.mem_cons.1 hc with rfl | hc
        · rcases hm with rfl | rfl <;> exact .inr (by decide)
        · rcases List.mem_append.1 hc with hc | hc
          · exact .inr (hsigns hs hc)
          · exact .inl (hd.2 c hc)

/-- The constants over the digits `0` to `9` are those without digits of other
scripts. -/
theorem isNumericConstant_ascii_iff :
    IsNumericConstant Char.isDigit cs ↔
      IsNumericConstant isDecimalDigit cs ∧
        ∀ c ∈ cs, isDecimalDigit c = true → c.isDigit = true := by
  constructor
  · intro h
    refine ⟨h.mono fun c _ => isDecimalDigit_of_isDigit, fun c hc hdigit => ?_⟩
    rcases h.digit_or_mark hc with hascii | hmark
    · exact hascii
    · rw [not_isDecimalDigit_mark hmark] at hdigit
      cases hdigit
  · rintro ⟨h, hascii⟩
    exact h.mono hascii

end CqlToSql.Text
