/-
  CqlToSql.Proofs.Text.Characters
  ───────────────────────────────
  Which characters a text can hold: the parts of a text hold only characters
  of that text and are joined to it again, a text without blanks has none to
  trim, and numeric constants, UUIDs and identifiers hold only those of their
  alphabet.
-/
import CqlToSql.Text.Blank
import CqlToSql.Text.Identifier
import CqlToSql.Text.Numeric
import CqlToSql.Text.Uuid

namespace CqlToSql.Text

variable {sep x : Char} {cs : List Char} {s : String}

/-! ## §1. Parts. -/

theorem splitChars_ne_nil (sep : Char) (cs : List Char) : splitChars sep cs ≠ [] := by
  cases cs with
  | nil => simp [splitChars]
  | cons c cs =>
    unfold splitChars
    split
    · simp
    · split <;> simp

theorem mem_of_mem_splitChars {part : List Char} (hp : part ∈ splitChars sep cs) (hx : x ∈ part) :
    x ∈ cs := by
  induction cs generalizing part with
  | nil => simp_all [splitChars]
  | cons c cs ih =>
    unfold splitChars at hp
    split at hp
    · rcases List.mem_cons.1 hp with rfl | hp
      · simp at hx
      · exact List.mem_cons_of_mem _ (ih hp hx)
    · split at hp
      · rename_i first rest hs
        rcases List.mem_cons.1 hp with rfl | hp
        · rcases List.mem_cons.1 hx with rfl | hx
          · simp
          · exact List.mem_cons_of_mem _ (ih (hs ▸ List.mem_cons_self) hx)
        · exact List.mem_cons_of_mem _ (ih (hs ▸ List.mem_cons_of_mem _ hp) hx)
      · rename_i hs
        exact absurd hs (splitChars_ne_nil sep cs)

/-- Only separators are lost between the parts. -/
theorem exists_mem_splitChars (hx : x ∈ cs) (hsep : x ≠ sep) :
    ∃ part ∈ splitChars sep cs, x ∈ part := by
  induction cs with
  | nil => simp at hx
  | cons c cs ih =>
    unfold splitChars
    split
    · rename_i hc
      rcases List.mem_cons.1 hx with rfl | hx
      · exact absurd hc hsep
      · obtain ⟨part, hp, hxp⟩ := ih hx
        exact ⟨part, List.mem_cons_of_mem _ hp, hxp⟩
    · split
      · rename_i first rest hs
        rcases List.mem_cons.1 hx with rfl | hx
        · exact ⟨x :: first, by simp, by simp⟩
        · obtain ⟨part, hp, hxp⟩ := ih hx
          rw [hs] at hp
          rcases List.mem_cons.1 hp with rfl | hp
          · exact ⟨c :: part, by simp, by simp [hxp]⟩
          · exact ⟨part, List.mem_cons_of_mem _ hp, hxp⟩
      · rename_i hs
        exact absurd hs (splitChars_ne_nil sep cs)

/-- No part holds a separator. -/
theorem sep_not_mem_of_mem_splitChars {part : List Char} (hp : part ∈ splitChars sep cs) :
    sep ∉ part := by
  induction cs generalizing part with
  | nil => simp_all [splitChars]
  | cons c cs ih =>
    unfold splitChars at hp
    split at hp
    · rcases List.mem_cons.1 hp with rfl | hp
      · exact List.not_mem_nil
      · exact ih hp
    · rename_i hc
      split at hp
      · rename_i first rest hs
        rcases List.mem_cons.1 hp with rfl | hp
        · rw [List.mem_cons, not_or]
          exact ⟨Ne.symm hc, ih (hs ▸ List.mem_cons_self)⟩
        · exact ih (hs ▸ List.mem_cons_of_mem _ hp)
      · rename_i hs
        exact absurd hs (splitChars_ne_nil sep cs)

theorem sep_not_mem_of_mem_splitAt {part : String} (hp : part ∈ splitAt sep s) :
    sep ∉ part.toList := by
  obtain ⟨p, hps, rfl⟩ := List.mem_map.1 hp
  rw [String.toList_ofList]
  exact sep_not_mem_of_mem_splitChars hps

theorem not_mem_of_mem_splitAt {part : String} (h : x ∉ s.toList) (hp : part ∈ splitAt sep s) :
    x ∉ part.toList := by
  obtain ⟨p, hps, rfl⟩ := List.mem_map.1 hp
  rw [String.toList_ofList]
  exact fun hx => h (mem_of_mem_splitChars hps hx)

/-- The last cut leaves the text as it is, but for the separator. -/
theorem eq_of_cutLastChars {before rest : List Char}
    (h : cutLastChars sep cs = some (before, rest)) : cs = before ++ sep :: rest := by
  induction cs generalizing before with
  | nil => simp [cutLastChars] at h
  | cons c cs ih =>
    unfold cutLastChars at h
    split at h
    · rename_i b r hr
      cases h
      rw [ih hr, List.cons_append]
    · split at h
      · rename_i hc
        cases h
        rw [hc, List.nil_append]
      · cases h

/-- The last cut is made at a separator that none follows. -/
theorem cutLastChars_append (before : List Char) {rest : List Char} (h : sep ∉ rest) :
    cutLastChars sep (before ++ sep :: rest) = some (before, rest) := by
  -- the cut is searched from the end, where it finds no separator
  have hnone : ∀ ds : List Char, sep ∉ ds → cutLastChars sep ds = none := by
    intro ds hds
    induction ds with
    | nil => rfl
    | cons d ds ih =>
      rw [List.mem_cons, not_or] at hds
      rw [cutLastChars, ih hds.2]
      simp [Ne.symm hds.1]
  induction before with
  | nil => simp [cutLastChars, hnone rest h]
  | cons b before ih => simp [cutLastChars, ih]

/-- No cut is made where there is no separator. -/
theorem not_mem_of_cutLastChars (h : cutLastChars sep cs = none) : sep ∉ cs := by
  induction cs with
  | nil => exact List.not_mem_nil
  | cons c cs ih =>
    unfold cutLastChars at h
    split at h
    · cases h
    · rename_i hrest
      split at h
      · cases h
      · rename_i hc
        simp [ih hrest, Ne.symm hc]

theorem eq_of_afterChars {start rest : List Char} (h : afterChars start cs = some rest) :
    cs = start ++ rest := by
  fun_induction afterChars start cs with
  | case1 cs =>
    cases h
    rfl
  | case2 p ps cs ih => rw [ih h, List.cons_append]
  | case3 => cases h
  | case4 => cases h

theorem not_mem_of_after {start rest : String} (hs : x ∉ s.toList)
    (h : after start s = some rest) : x ∉ rest.toList := by
  obtain ⟨r, hr, rfl⟩ := Option.map_eq_some_iff.1 h
  rw [eq_of_afterChars hr, List.mem_append, not_or] at hs
  rw [String.toList_ofList]
  exact hs.2

/-- Joining the parts with another text between them puts that text in the place
of every separator. -/
theorem toList_joinWith_splitChars (between : String) (sep : Char) (cs : List Char) :
    (joinWith between ((splitChars sep cs).map String.ofList)).toList
      = cs.flatMap fun c => if c = sep then between.toList else [c] := by
  induction cs with
  | nil => rfl
  | cons c cs ih =>
    obtain ⟨part, parts, hparts⟩ := List.exists_cons_of_ne_nil (splitChars_ne_nil sep cs)
    rw [hparts] at ih
    unfold splitChars
    rw [hparts, List.flatMap_cons, ← ih]
    by_cases hc : c = sep
    · -- an empty part in front, and the separator behind it
      rw [if_pos hc, if_pos hc, List.map_cons, List.map_cons, joinWith, ← List.map_cons,
        String.toList_append]
      simp
    · rw [if_neg hc, if_neg hc]
      cases parts with
      | nil => simp [joinWith]
      | cons next parts => simp [joinWith]

/-- Joining the parts again gives the text back. -/
theorem joinWith_splitAt (s : String) : joinWith "." (splitAt '.' s) = s := by
  have hsame : ∀ c : Char, (if c = '.' then ".".toList else [c]) = [c] := by
    intro c
    split
    · rename_i hc
      rw [hc]
      rfl
    · rfl
  rw [← String.toList_inj, splitAt, toList_joinWith_splitChars]
  simp only [hsame, List.flatMap_singleton']

theorem splitAt_ne_nil (sep : Char) (s : String) : splitAt sep s ≠ [] := by
  unfold splitAt
  simp [splitChars_ne_nil]

/-- There is always a last part. -/
theorem exists_splitAt_eq_concat (sep : Char) (s : String) :
    ∃ front final, splitAt sep s = front ++ [final] :=
  ⟨_, _, (List.dropLast_concat_getLast (splitAt_ne_nil sep s)).symm⟩

theorem splitChars_of_not_mem (h : sep ∉ cs) : splitChars sep cs = [cs] := by
  induction cs with
  | nil => rfl
  | cons c cs ih =>
    rw [List.mem_cons, not_or] at h
    rw [splitChars, if_neg (Ne.symm h.1), ih h.2]

/-- A separator ends the parts of what stands before it. -/
theorem splitChars_append (as bs : List Char) :
    splitChars sep (as ++ sep :: bs) = splitChars sep as ++ splitChars sep bs := by
  induction as with
  | nil => simp [splitChars]
  | cons a as ih =>
    obtain ⟨part, parts, hparts⟩ := List.exists_cons_of_ne_nil (splitChars_ne_nil sep as)
    rw [hparts] at ih
    rw [List.cons_append, splitChars, splitChars, ih, hparts]
    split <;> rfl

theorem splitAt_of_not_mem (h : sep ∉ s.toList) : splitAt sep s = [s] := by
  rw [splitAt, splitChars_of_not_mem h, List.map_singleton, String.ofList_toList]

theorem splitAt_append (a b : String) :
    splitAt '.' (a ++ "." ++ b) = splitAt '.' a ++ splitAt '.' b := by
  have hchars : (a ++ "." ++ b).toList = a.toList ++ '.' :: b.toList := by simp
  rw [splitAt, hchars, splitChars_append, List.map_append]
  rfl

/-- The first cut is made at a separator that none precedes. -/
theorem cutFirstChars_append {before : List Char} (rest : List Char) (h : sep ∉ before) :
    cutFirstChars sep (before ++ sep :: rest) = some (before, rest) := by
  induction before with
  | nil => simp [cutFirstChars]
  | cons b before ih =>
    rw [List.mem_cons, not_or] at h
    rw [List.cons_append, cutFirstChars, if_neg (Ne.symm h.1), ih h.2]
    rfl

theorem cutFirst_append {a : String} (b : String) (h : '.' ∉ a.toList) :
    cutFirst '.' (a ++ "." ++ b) = some (a, b) := by
  have hchars : (a ++ "." ++ b).toList = a.toList ++ '.' :: b.toList := by simp
  rw [cutFirst, hchars, cutFirstChars_append _ h]
  simp

/-- What stands before the first separator is the first part. -/
theorem splitChars_of_cutFirstChars {before rest : List Char}
    (h : cutFirstChars sep cs = some (before, rest)) :
    splitChars sep cs = before :: splitChars sep rest := by
  induction cs generalizing before with
  | nil => cases h
  | cons c cs ih =>
    unfold cutFirstChars at h
    by_cases hc : c = sep
    · rw [if_pos hc] at h
      cases h
      rw [splitChars, if_pos hc]
    · rw [if_neg hc] at h
      obtain ⟨⟨front, back⟩, hcut, heq⟩ := Option.map_eq_some_iff.1 h
      cases heq
      rw [splitChars, if_neg hc, ih hcut]

theorem splitAt_of_cutFirst {a b : String} (h : cutFirst sep s = some (a, b)) :
    splitAt sep s = a :: splitAt sep b := by
  unfold cutFirst at h
  obtain ⟨⟨before, rest⟩, hcut, heq⟩ := Option.map_eq_some_iff.1 h
  cases heq
  rw [splitAt, splitChars_of_cutFirstChars hcut, List.map_cons, splitAt, String.toList_ofList]

theorem cutLast_append (a : String) {b : String} (h : '.' ∉ b.toList) :
    cutLast '.' (a ++ "." ++ b) = some (a, b) := by
  have hchars : (a ++ "." ++ b).toList = a.toList ++ '.' :: b.toList := by simp
  rw [cutLast, hchars, cutLastChars_append _ h]
  simp

theorem not_mem_of_cutLast (h : cutLast sep s = none) : sep ∉ s.toList :=
  not_mem_of_cutLastChars (Option.map_eq_none_iff.1 h)

theorem afterChars_append (start rest : List Char) :
    afterChars start (start ++ rest) = some rest := by
  induction start with
  | nil => rfl
  | cons c start ih => rw [List.cons_append, afterChars, if_pos rfl, ih]

theorem after_eq_some_iff {start rest : String} : after start s = some rest ↔ s = start ++ rest := by
  unfold after
  constructor
  · intro h
    obtain ⟨r, hr, rfl⟩ := Option.map_eq_some_iff.1 h
    rw [← String.toList_inj, eq_of_afterChars hr]
    simp
  · rintro rfl
    rw [String.toList_append, afterChars_append]
    simp

/-! ## §2. Blanks and backslashes. -/

theorem dropFinalBlanks_eq_self {cs : List Char} (h : ∀ c ∈ cs, isBlank c = false) :
    dropFinalBlanks cs = cs := by
  induction cs with
  | nil => rfl
  | cons c cs ih =>
    have hc : isBlank c = false := h c List.mem_cons_self
    unfold dropFinalBlanks
    rw [ih fun d hd => h d (List.mem_cons_of_mem c hd)]
    cases cs with
    | nil => simp [hc]
    | cons d ds => rfl

theorem trim_eq_self {s : String} (h : ∀ c ∈ s.toList, isBlank c = false) : trim s = s := by
  have hfront : dropBlanks s.toList = s.toList := by
    unfold dropBlanks
    cases hs : s.toList with
    | nil => rfl
    | cons c cs =>
      rw [hs] at h
      exact List.dropWhile_cons_of_neg (by simp [h c List.mem_cons_self])
  rw [trim, hfront, dropFinalBlanks_eq_self h, String.ofList_toList]

/-- In the last case of a reader, a backslash would have been one of the cases
before. -/
theorem ne_backslash_of_cases {c : Char} {cs : List Char} (hend : c = '\\' → cs = [] → False)
    (hpair : ∀ d ds, c = '\\' → cs = d :: ds → False) : c ≠ '\\' := by
  rintro rfl
  cases cs with
  | nil => exact hend rfl rfl
  | cons d ds => exact hpair d ds rfl rfl

/-! ## §3. Alphabets. -/

/-- What holds of the first 128 code points holds of every ASCII character. -/
theorem ascii_cases {P : Char → Prop} (h : ∀ n < 128, P (Char.ofNat n)) {c : Char}
    (hc : c.toNat < 128) : P c := by
  have hcode := h c.toNat hc
  rw [Char.ofNat_toNat] at hcode
  exact hcode

/-- The marks of a numeric constant. -/
def numericMarks : List Char := ['+', '-', '.', 'e', 'E']

theorem not_mem_of_isDigits (hd : isDecimalDigit x = false) (h : isDigits cs = true) : x ∉ cs := by
  intro hx
  rw [isDigits, Bool.and_eq_true, List.all_eq_true] at h
  have := h.2 x hx
  simp_all

theorem mem_dropSign (hm : x ∉ numericMarks) (hx : x ∈ cs) : x ∈ dropSign cs := by
  fun_cases dropSign cs with
  | case1 cs | case2 cs =>
    rcases List.mem_cons.1 hx with rfl | hx
    · exact absurd (by decide) hm
    · exact hx
  | case3 => exact hx

theorem not_mem_of_isExponent (hd : isDecimalDigit x = false) (hm : x ∉ numericMarks)
    (h : isExponent cs = true) : x ∉ cs := by
  cases cs with
  | nil => simp
  | cons c cs =>
    rw [isExponent, Bool.and_eq_true, Bool.or_eq_true, beq_iff_eq, beq_iff_eq] at h
    obtain ⟨hc, hdigits⟩ := h
    intro hx
    rcases List.mem_cons.1 hx with rfl | hx
    · rcases hc with rfl | rfl <;> exact hm (by decide)
    · exact not_mem_of_isDigits hd hdigits (mem_dropSign hm hx)

theorem mem_dropWhile_digit (hd : isDecimalDigit x = false) (hx : x ∈ cs) :
    x ∈ cs.dropWhile isDecimalDigit := by
  induction cs with
  | nil => simp at hx
  | cons c cs ih =>
    rw [List.dropWhile_cons]
    split
    · rename_i hc
      rcases List.mem_cons.1 hx with rfl | hx
      · simp [hd] at hc
      · exact ih hx
    · exact hx

theorem not_mem_of_isUnsignedNumeric (hd : isDecimalDigit x = false) (hm : x ∉ numericMarks)
    (h : isUnsignedNumeric cs = true) : x ∉ cs := by
  intro hx
  -- what is no digit stands behind the digits, and is one of the marks there
  have hrest := mem_dropWhile_digit hd hx
  unfold isUnsignedNumeric at h
  split at h
  · rename_i rest hr
    rw [Bool.and_eq_true] at h
    rw [hr] at hrest
    rcases List.mem_cons.1 hrest with rfl | hrest
    · exact hm (by decide)
    · exact not_mem_of_isExponent hd hm h.2 (mem_dropWhile_digit hd hrest)
  · rw [Bool.and_eq_true] at h
    exact not_mem_of_isExponent hd hm h.2 hrest

/-- A numeric constant holds digits and the marks of a number. -/
theorem not_mem_of_isNumeric (hd : isDecimalDigit x = false) (hm : x ∉ numericMarks)
    (h : isNumeric s = true) : x ∉ s.toList :=
  fun hx => not_mem_of_isUnsignedNumeric hd hm h (mem_dropSign hm hx)

/-- A UUID holds hexadecimal digits and hyphens. -/
theorem not_mem_of_isUuid (hd : isHexDigit x = false) (hm : x ≠ '-') (h : isUuid s = true) :
    x ∉ s.toList := by
  intro hx
  obtain ⟨group, hg, hxg⟩ := exists_mem_splitChars hx hm
  simp only [isUuid, Bool.and_eq_true, List.all_eq_true] at h
  have := h.2 group hg x hxg
  simp_all

/-- An identifier holds ASCII letters, digits and underscores. -/
theorem not_mem_of_isIdentifier (hd : continuesIdentifier x = false) (h : isIdentifier s = true) :
    x ∉ s.toList := by
  unfold isIdentifier at h
  split at h
  · cases h
  · rename_i c cs hs
    simp only [Bool.and_eq_true, List.all_eq_true] at h
    obtain ⟨⟨hc, -⟩, hcs⟩ := h
    intro hx
    rw [hs] at hx
    rcases List.mem_cons.1 hx with rfl | hx
    · simp [continuesIdentifier, hc] at hd
    · simp [hcs x hx] at hd

end CqlToSql.Text
