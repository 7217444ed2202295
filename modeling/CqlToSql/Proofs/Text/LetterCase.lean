/-
  CqlToSql.Proofs.Text.LetterCase
  ───────────────────────────────
  **A keyword in any letter case.**  Query words are lower-cased by the full
  Unicode mapping before they are compared with a keyword, and some are
  compared up to ASCII letter case only.  For the keywords of the query
  language both comparisons agree:

      lowerCase w = k  ↔  w.toList.map asciiLower = k.toList

  The two differ on keywords with an `i` or a `k`: the Kelvin sign becomes
  `k`, and the capital I with a dot becomes `i` and a mark.
-/
import CqlToSql.Text.LowerCase

namespace CqlToSql.Text

/-! ## §1. Which characters become ASCII characters. -/

/-- An ASCII character that nothing but an ASCII character is lower-cased to. -/
def IsPlainLower (c : Char) : Prop :=
  c.toNat < 0x80 ∧ c ≠ 'i' ∧ c ≠ 'k' ∧ c ≠ Char.ofNat 0

instance (c : Char) : Decidable (IsPlainLower c) := by
  unfold IsPlainLower
  infer_instance

/-- Apart from the run of the ASCII letters, only the Kelvin sign has an ASCII
image. -/
theorem lowerRuns_image :
    ∀ run ∈ lowerRuns, run.last < 0x80 ∨ 0x80 ≤ run.image
      ∨ (run.first = run.last ∧ run.image = 0x6B) := by
  decide +kernel

/-- A character of a run beyond ASCII becomes `k` or a code point beyond ASCII. -/
theorem CaseRun.apply_beyondAscii {run : CaseRun} (hrun : run ∈ lowerRuns) {n m : Nat}
    (hn : 0x80 ≤ n) (h : run.apply n = some m) : 0x80 ≤ m ∨ m = 0x6B := by
  unfold CaseRun.apply at h
  split at h
  · rename_i hin
    injection h with h
    -- the ASCII letters, images beyond ASCII, and the Kelvin sign
    rcases lowerRuns_image run hrun with hlast | himage | ⟨hone, himage⟩
    · omega
    · left
      omega
    · right
      omega
  · exact absurd h (by simp)

/-- The character of a code point beyond ASCII is not plain; a code point that
is no character gives the zero character. -/
theorem not_isPlainLower_ofNat {n : Nat} (hn : 0x80 ≤ n) : ¬ IsPlainLower (Char.ofNat n) := by
  rintro ⟨hlt, -, -, hzero⟩
  unfold Char.ofNat at hlt hzero
  by_cases hv : n.isValidChar
  · rw [dif_pos hv] at hlt
    unfold Char.ofNatAux Char.toNat at hlt
    simp at hlt
    omega
  · rw [dif_neg hv] at hzero
    exact hzero rfl

/-- The lower-case form of a character beyond ASCII has a character that is
not plain. -/
theorem lowerChar_beyondAscii {c : Char} (hc : 0x80 ≤ c.toNat) :
    ∃ d ∈ lowerChar c, ¬ IsPlainLower d := by
  have hlt : ¬ c.toNat < 0x80 := by omega
  unfold lowerChar
  rw [if_neg hlt]
  by_cases hdot : c.toNat = 0x130
  · rw [if_pos hdot]
    exact ⟨'i', by simp, by decide⟩
  · rw [if_neg hdot]
    cases hrun : lowerRuns.findSome? (CaseRun.apply · c.toNat) with
    | none =>
      refine ⟨c, by simp, ?_⟩
      rintro ⟨hascii, -⟩
      omega
    | some m =>
      refine ⟨Char.ofNat m, by simp, ?_⟩
      obtain ⟨run, hmem, happly⟩ := List.exists_of_findSome?_eq_some hrun
      rcases CaseRun.apply_beyondAscii hmem hc happly with hm | rfl
      · exact not_isPlainLower_ofNat hm
      · decide

/-! ## §2. Texts. -/

/-- An ASCII character is lower-cased without regard to its neighbours. -/
theorem lowerFrom_cons_ascii {c : Char} (hc : c.toNat < 0x80) (afterCased : Bool)
    (cs : List Char) :
    lowerFrom afterCased (c :: cs)
      = asciiLower c :: lowerFrom (if isCaseIgnorable c then afterCased else isCased c) cs := by
  have hs : c ≠ capitalSigma := by
    rintro rfl
    exact absurd hc (by decide)
  simp [lowerFrom, hs, lowerChar, hc]

/-- An ASCII text is lower-cased character by character. -/
theorem lowerFrom_ascii {cs : List Char} (h : ∀ c ∈ cs, c.toNat < 0x80) (afterCased : Bool) :
    lowerFrom afterCased cs = cs.map asciiLower := by
  induction cs generalizing afterCased with
  | nil => rfl
  | cons c cs ih =>
    rw [lowerFrom_cons_ascii (h c (by simp)), ih (fun d hd => h d (by simp [hd]))]
    rfl

/-- A text with a character beyond ASCII in front has a lower-case form that is
not plain. -/
theorem lowerFrom_cons_beyondAscii {c : Char} (hc : 0x80 ≤ c.toNat) (afterCased : Bool)
    (cs : List Char) : ∃ d ∈ lowerFrom afterCased (c :: cs), ¬ IsPlainLower d := by
  by_cases hs : c = capitalSigma
  · -- both forms of the small sigma lie beyond ASCII
    subst hs
    by_cases hfinal : (afterCased && !startsCased cs) = true
    · exact ⟨Char.ofNat 0x3C2, by simp [lowerFrom, hfinal], by decide⟩
    · exact ⟨Char.ofNat 0x3C3, by simp [lowerFrom, hfinal], by decide⟩
  · obtain ⟨d, hd, hplain⟩ := lowerChar_beyondAscii hc
    exact ⟨d, by simp [lowerFrom, hs, hd], hplain⟩

/-- A text whose lower-case form is plain is an ASCII text. -/
theorem ascii_of_lowerFrom {cs : List Char} {afterCased : Bool}
    (h : ∀ d ∈ lowerFrom afterCased cs, IsPlainLower d) : ∀ c ∈ cs, c.toNat < 0x80 := by
  induction cs generalizing afterCased with
  | nil => simp
  | cons c cs ih =>
    have hc : c.toNat < 0x80 := by
      rcases Nat.lt_or_ge c.toNat 0x80 with hlt | hge
      · exact hlt
      · obtain ⟨d, hd, hplain⟩ := lowerFrom_cons_beyondAscii hge afterCased cs
        exact absurd (h d hd) hplain
    -- what follows is lower-cased after another character, so the flag is generalized
    rw [lowerFrom_cons_ascii hc] at h
    intro d hd
    rcases List.mem_cons.1 hd with rfl | hd
    · exact hc
    · exact ih (fun e he => h e (List.mem_cons_of_mem _ he)) d hd

/-- ASCII lower-casing leaves characters beyond ASCII as they are. -/
theorem toNat_asciiLower_lt {c : Char} (h : (asciiLower c).toNat < 0x80) : c.toNat < 0x80 := by
  unfold asciiLower at h
  split at h
  · rename_i hu
    have hrange : 'A'.val ≤ c.val ∧ c.val ≤ 'Z'.val := of_decide_eq_true hu
    have hz : c.val.toNat ≤ 90 := hrange.2
    show c.val.toNat < 0x80
    omega
  · exact h

/-- **For a plain keyword, full lower-casing and ASCII lower-casing agree.** -/
theorem lowerCase_eq_iff {keyword : String} (hk : ∀ c ∈ keyword.toList, IsPlainLower c)
    (word : String) : lowerCase word = keyword ↔ word.toList.map asciiLower = keyword.toList := by
  unfold lowerCase
  constructor
  · intro h
    subst h
    rw [String.toList_ofList] at hk ⊢
    exact (lowerFrom_ascii (ascii_of_lowerFrom hk) false).symm
  · intro h
    -- the keyword is ASCII text, and nothing beyond ASCII is mapped into it
    have hascii : ∀ c ∈ word.toList, c.toNat < 0x80 := by
      intro c hc
      apply toNat_asciiLower_lt
      refine (hk _ ?_).1
      rw [← h]
      exact List.mem_map_of_mem hc
    rw [lowerFrom_ascii hascii, h, String.ofList_toList]

end CqlToSql.Text
