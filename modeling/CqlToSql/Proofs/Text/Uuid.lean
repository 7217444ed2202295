/-
  CqlToSql.Proofs.Text.Uuid
  ─────────────────────────
  **UUIDs as numbers and as texts.**  A UUID is a number of 128 bits.  Its
  canonical text has 32 hexadecimal digits in small letters, in five groups
  with hyphens between them; capital letters are read as well.

      u.text        — the canonical text
      readUuid cs   — the number that a text stands for

  Main statements: `readUuid` accepts the canonical texts in any letter case
  and nothing else, and a UUID lies between the two ends of the range of a
  text just when its canonical text starts with that text.
-/
import CqlToSql.Proofs.Text.Characters
import Mathlib.Data.Nat.Digits.Lemmas

namespace CqlToSql.Text

/-! ## §1. Hexadecimal digits. -/

/-- The number that a hexadecimal digit of either case stands for. -/
def hexValue (c : Char) : Nat :=
  if c.isDigit then c.toNat - '0'.toNat else (asciiLower c).toNat - 'a'.toNat + 10

theorem toNat_lt_of_isHexDigit {c : Char} (h : isHexDigit c = true) : c.toNat < 128 := by
  simp only [isHexDigit, inRanges, List.any_cons, List.any_nil, Bool.or_false, Bool.or_eq_true,
    Bool.and_eq_true, decide_eq_true_eq] at h
  omega

/-- A digit in small letters is the one that is written for its number. -/
theorem digitChar_hexValue {c : Char} (h : isHexDigit c = true) :
    Nat.digitChar (hexValue c) = asciiLower c :=
  ascii_cases (P := fun c => isHexDigit c = true → Nat.digitChar (hexValue c) = asciiLower c)
    (by decide) (toNat_lt_of_isHexDigit h) h

theorem hexValue_lt {c : Char} (h : isHexDigit c = true) : hexValue c < 16 :=
  ascii_cases (P := fun c => isHexDigit c = true → hexValue c < 16) (by decide)
    (toNat_lt_of_isHexDigit h) h

theorem utf8Size_of_isHexDigit {c : Char} (h : isHexDigit c = true) : c.utf8Size = 1 :=
  ascii_cases (P := fun c => isHexDigit c = true → c.utf8Size = 1) (by decide)
    (toNat_lt_of_isHexDigit h) h

theorem hexValue_digitChar : ∀ d < 16, hexValue (Nat.digitChar d) = d := by decide

theorem isHexDigit_digitChar : ∀ d < 16, isHexDigit (Nat.digitChar d) = true := by decide

/-- Letter case does not matter for digits and hyphens. -/
theorem asciiLower_digit_or_hyphen (c : Char) :
    isHexDigit (asciiLower c) = isHexDigit c ∧ (asciiLower c == '-') = (c == '-') := by
  by_cases hc : c.toNat < 128
  · exact ascii_cases (P := fun c => isHexDigit (asciiLower c) = isHexDigit c ∧
      (asciiLower c == '-') = (c == '-')) (by decide) hc
  · -- beyond ASCII there is no letter case here
    have hsame : asciiLower c = c := by
      unfold asciiLower
      refine if_neg fun hu => hc ?_
      have hz : c.val.toNat ≤ 90 := (of_decide_eq_true hu : 'A'.val ≤ c.val ∧ c.val ≤ 'Z'.val).2
      show c.val.toNat < 128
      omega
    rw [hsame]
    exact ⟨rfl, rfl⟩

/-- The number that a list of digits stands for, the most significant first. -/
def hexNumber (ds : List Nat) : Nat := Nat.ofDigits 16 ds.reverse

theorem hexNumber_append (xs ys : List Nat) :
    hexNumber (xs ++ ys) = 16 ^ ys.length * hexNumber xs + hexNumber ys := by
  unfold hexNumber
  rw [List.reverse_append, Nat.ofDigits_append, List.length_reverse, Nat.add_comm]

theorem hexNumber_lt {ds : List Nat} (h : ∀ d ∈ ds, d < 16) : hexNumber ds < 16 ^ ds.length := by
  have hlt : Nat.ofDigits 16 ds.reverse < 16 ^ ds.reverse.length := by
    refine Nat.ofDigits_lt_base_pow_length (by decide) ?_
    intro d hd
    exact h d (List.mem_reverse.1 hd)
  rw [List.length_reverse] at hlt
  exact hlt

theorem hexNumber_injective {xs ys : List Nat} (hx : ∀ d ∈ xs, d < 16) (hy : ∀ d ∈ ys, d < 16)
    (hlen : xs.length = ys.length) (h : hexNumber xs = hexNumber ys) : xs = ys := by
  rw [← List.reverse_inj]
  refine Nat.ofDigits_inj_of_len_eq (by decide) (by simpa using hlen) ?_ ?_ h
  · intro d hd
    exact hx d (List.mem_reverse.1 hd)
  · intro d hd
    exact hy d (List.mem_reverse.1 hd)

theorem hexNumber_zeros (k : Nat) : hexNumber (List.replicate k 0) = 0 := by
  rw [hexNumber, List.reverse_replicate, Nat.ofDigits_replicate_zero]

/-- The number with the greatest digits is the last one of its length. -/
theorem hexNumber_fifteens (k : Nat) : hexNumber (List.replicate k 15) + 1 = 16 ^ k := by
  rw [hexNumber, List.reverse_replicate]
  induction k with
  | zero => rfl
  | succ k ih =>
    rw [List.replicate_succ, Nat.ofDigits_cons, Nat.pow_succ, ← ih]
    omega

/-- **The numbers that start with some digits are a range**: from these digits
and zeros up to these digits and fifteens. -/
theorem hexNumber_range_iff {ds xs ys : List Nat} (hd : ∀ d ∈ ds, d < 16) (hx : ∀ d ∈ xs, d < 16)
    (hy : ∀ d ∈ ys, d < 16) (hlen : xs.length = ds.length) :
    (hexNumber (ds ++ List.replicate ys.length 0) ≤ hexNumber (xs ++ ys) ∧
      hexNumber (xs ++ ys) ≤ hexNumber (ds ++ List.replicate ys.length 15)) ↔ xs = ds := by
  simp only [hexNumber_append, List.length_replicate, hexNumber_zeros, Nat.add_zero]
  have hlow := hexNumber_lt hy
  have hhigh := hexNumber_fifteens ys.length
  generalize 16 ^ ys.length = power at hlow hhigh ⊢
  constructor
  · rintro ⟨hle, hge⟩
    -- the digits behind are less than one unit of the digits in front
    have h₁ : power * hexNumber ds < power * (hexNumber xs + 1) := by
      rw [Nat.mul_succ]
      omega
    have h₂ : power * hexNumber xs < power * (hexNumber ds + 1) := by
      rw [Nat.mul_succ]
      omega
    have h₃ := Nat.lt_of_mul_lt_mul_left h₁
    have h₄ := Nat.lt_of_mul_lt_mul_left h₂
    exact hexNumber_injective hx hd hlen (by omega)
  · rintro rfl
    omega

/-! ## §2. Places for digits and hyphens. -/

/-- The places of a text with groups of these lengths: `true` for a digit and
`false` for a hyphen. -/
def places : List Nat → List Bool
  | [] => []
  | [n] => List.replicate n true
  | n :: m :: ns => List.replicate n true ++ false :: places (m :: ns)

/-- The places of a UUID. -/
def uuidPlaces : List Bool := places uuidGroups

/-- Digits and hyphens stand at their places. -/
def fits : List Bool → List Char → Bool
  | [], [] => true
  | digit :: ps, c :: cs => (if digit then isHexDigit c else c == '-') && fits ps cs
  | _, _ => false

theorem places_succ (n : Nat) (ns : List Nat) : places ((n + 1) :: ns) = true :: places (n :: ns) := by
  cases ns with
  | nil => rfl
  | cons m ns => rfl

theorem places_zero (m : Nat) (ns : List Nat) : places (0 :: m :: ns) = false :: places (m :: ns) :=
  rfl

theorem splitChars_cons_of_ne {sep c : Char} {cs part : List Char} {parts : List (List Char)}
    (hc : c ≠ sep) (h : splitChars sep cs = part :: parts) :
    splitChars sep (c :: cs) = (c :: part) :: parts := by
  rw [splitChars, if_neg hc, h]

/-- A text fits the places of some groups just when it is made of groups of
digits of these lengths. -/
theorem fits_places_iff (cs : List Char) (n : Nat) (ns : List Nat) :
    fits (places (n :: ns)) cs = true ↔
      (splitChars '-' cs).map List.length = n :: ns ∧
        ∀ group ∈ splitChars '-' cs, ∀ c ∈ group, isHexDigit c = true := by
  induction cs generalizing n ns with
  | nil =>
    cases n with
    | zero => cases ns <;> simp [places, fits, splitChars]
    | succ n => simp [places_succ, fits, splitChars]
  | cons c cs ih =>
    obtain ⟨part, parts, hparts⟩ := List.exists_cons_of_ne_nil (splitChars_ne_nil '-' cs)
    by_cases hc : c = '-'
    · subst hc
      have hsplit : splitChars '-' ('-' :: cs) = [] :: splitChars '-' cs := rfl
      rw [hsplit]
      cases n with
      | zero =>
        cases ns with
        | nil => simp [places, fits, hparts]
        | cons m ns =>
          -- the hyphen ends a group, and the text behind it is made of the others
          rw [places_zero, fits, Bool.and_eq_true, ih m ns]
          simp
      | succ n => simp [places_succ, fits, show isHexDigit '-' = false from rfl]
    · rw [splitChars_cons_of_ne hc hparts]
      cases n with
      | zero => cases ns <;> simp [places, fits, hc]
      | succ n =>
        -- the digit is one more in the first group
        rw [places_succ, fits, Bool.and_eq_true, ih n ns, hparts]
        simp only [if_true, List.map_cons, List.length_cons, List.cons.injEq, Nat.add_right_cancel_iff,
          List.forall_mem_cons]
        tauto

theorem isUuid_eq_fits (s : String) : isUuid s = fits uuidPlaces s.toList := by
  rw [Bool.eq_iff_iff, uuidPlaces, uuidGroups, fits_places_iff, isUuid, Bool.and_eq_true, beq_iff_eq,
    List.all_eq_true]
  simp only [List.all_eq_true, uuidGroups]

/-! ## §3. Texts at their places. -/

variable {ps : List Bool} {cs ds : List Char}

theorem length_of_fits (h : fits ps cs = true) : cs.length = ps.length := by
  fun_induction fits ps cs with
  | case1 => rfl
  | case2 digit ps c cs ih =>
    rw [Bool.and_eq_true] at h
    rw [List.length_cons, List.length_cons, ih h.2]
  | case3 => cases h

/-- A text fits in two parts. -/
theorem fits_append (ps : List Bool) (cs ds : List Char) :
    fits ps (cs ++ ds) = (fits (ps.take cs.length) cs && fits (ps.drop cs.length) ds) := by
  induction cs generalizing ps with
  | nil => rfl
  | cons c cs ih =>
    cases ps with
    | nil => rfl
    | cons digit ps =>
      show (_ && fits ps (cs ++ ds)) = _
      rw [ih ps, ← Bool.and_assoc]
      rfl

theorem fits_map_asciiLower (ps : List Bool) (cs : List Char) :
    fits ps (cs.map asciiLower) = fits ps cs := by
  induction cs generalizing ps with
  | nil => rfl
  | cons c cs ih =>
    cases ps with
    | nil => rfl
    | cons digit ps =>
      obtain ⟨hdigit, hhyphen⟩ := asciiLower_digit_or_hyphen c
      rw [List.map_cons, fits, fits, ih ps, hdigit, hhyphen]

/-- A text at its places holds digits and hyphens. -/
theorem digit_or_hyphen_of_fits (h : fits ps cs = true) :
    ∀ c ∈ cs, isHexDigit c = true ∨ c = '-' := by
  fun_induction fits ps cs with
  | case1 => simp
  | case2 digit ps c cs ih =>
    rw [Bool.and_eq_true] at h
    have hc : isHexDigit c = true ∨ c = '-' := by
      cases digit with
      | true => exact .inl h.1
      | false => exact .inr (beq_iff_eq.1 h.1)
    intro d hd
    rcases List.mem_cons.1 hd with rfl | hd
    · exact hc
    · exact ih h.2 d hd
  | case3 => cases h

theorem byteLength_eq_length (h : ∀ c ∈ cs, isHexDigit c = true ∨ c = '-') :
    byteLength cs = cs.length := by
  induction cs with
  | nil => rfl
  | cons c cs ih =>
    rw [List.forall_mem_cons] at h
    have hc : c.utf8Size = 1 := by
      rcases h.1 with hc | rfl
      · exact utf8Size_of_isHexDigit hc
      · rfl
    rw [byteLength, hc, ih h.2, List.length_cons, Nat.add_comm]

/-- The digits of a text, as numbers. -/
def digitsOf : List Char → List Nat
  | [] => []
  | c :: cs => if c = '-' then digitsOf cs else hexValue c :: digitsOf cs

theorem digitsOf_append (cs ds : List Char) : digitsOf (cs ++ ds) = digitsOf cs ++ digitsOf ds := by
  induction cs with
  | nil => rfl
  | cons c cs ih =>
    rw [List.cons_append, digitsOf, digitsOf]
    split
    · exact ih
    · rw [ih, List.cons_append]

/-- Digits put at their places, with hyphens at the others. -/
def writeDigits : List Bool → List Nat → List Char
  | [], _ => []
  | false :: ps, ns => '-' :: writeDigits ps ns
  | true :: ps, n :: ns => Nat.digitChar n :: writeDigits ps ns
  | true :: _, [] => []

theorem isHexDigit_ne_hyphen {c : Char} (h : isHexDigit c = true) : c ≠ '-' := by
  rintro rfl
  cases h

/-- A text at its places has one digit for each place of a digit, and letter
case apart it is made of them. -/
theorem digitsOf_of_fits (h : fits ps cs = true) :
    (digitsOf cs).length = ps.count true ∧ (∀ d ∈ digitsOf cs, d < 16) ∧
      writeDigits ps (digitsOf cs) = cs.map asciiLower := by
  fun_induction fits ps cs with
  | case1 => simp [digitsOf, writeDigits]
  | case2 digit ps c cs ih =>
    rw [Bool.and_eq_true] at h
    obtain ⟨hlength, hlt, hwrite⟩ := ih h.2
    cases digit with
    | true =>
      have hc : isHexDigit c = true := h.1
      rw [digitsOf, if_neg (isHexDigit_ne_hyphen hc)]
      refine ⟨by simp [hlength], ?_, ?_⟩
      · exact List.forall_mem_cons.2 ⟨hexValue_lt hc, hlt⟩
      · rw [writeDigits, hwrite, digitChar_hexValue hc, List.map_cons]
    | false =>
      have hc : c = '-' := beq_iff_eq.1 h.1
      subst hc
      refine ⟨by simpa [digitsOf] using hlength, hlt, ?_⟩
      show '-' :: writeDigits ps (digitsOf cs) = _
      rw [hwrite]
      rfl
  | case3 => cases h

/-- Digits at their places are read back. -/
theorem writeDigits_spec {ns : List Nat} (hlength : ns.length = ps.count true) (hlt : ∀ n ∈ ns, n < 16) :
    fits ps (writeDigits ps ns) = true ∧ digitsOf (writeDigits ps ns) = ns := by
  induction ps generalizing ns with
  | nil =>
    have hnil : ns = [] := List.eq_nil_of_length_eq_zero hlength
    subst hnil
    exact ⟨rfl, rfl⟩
  | cons digit ps ih =>
    cases digit with
    | true =>
      cases ns with
      | nil => simp at hlength
      | cons n ns =>
        rw [List.forall_mem_cons] at hlt
        obtain ⟨hfits, hdigits⟩ := ih (by simpa using hlength) hlt.2
        have hn := isHexDigit_digitChar n hlt.1
        constructor
        · rw [writeDigits, fits, if_pos rfl, hn, hfits]
          rfl
        · rw [writeDigits, digitsOf, if_neg (isHexDigit_ne_hyphen hn), hdigits, hexValue_digitChar n hlt.1]
    | false =>
      obtain ⟨hfits, hdigits⟩ := ih (by simpa using hlength) hlt
      exact ⟨hfits, hdigits⟩

/-- At the same places, the digits say what a text is but for letter case. -/
theorem digitsOf_inj (hc : fits ps cs = true) (hd : fits ps ds = true) :
    digitsOf cs = digitsOf ds ↔ cs.map asciiLower = ds.map asciiLower := by
  constructor
  · intro h
    rw [← (digitsOf_of_fits hc).2.2, ← (digitsOf_of_fits hd).2.2, h]
  · intro h
    have hmap : ∀ {es : List Char}, fits ps es = true →
        digitsOf (es.map asciiLower) = digitsOf es := by
      intro es he
      obtain ⟨hlength, hlt, hwrite⟩ := digitsOf_of_fits he
      rw [← hwrite]
      exact (writeDigits_spec hlength hlt).2
    rw [← hmap hc, ← hmap hd, h]

/-- The digits of a text of one digit are all alike. -/
theorem digitsOf_uniform {digit : Char} (h : ∀ c ∈ cs, c = digit ∨ c = '-') :
    digitsOf cs = List.replicate (digitsOf cs).length (hexValue digit) := by
  induction cs with
  | nil => rfl
  | cons c cs ih =>
    rw [List.forall_mem_cons] at h
    rw [digitsOf]
    split
    · exact ih h.2
    · rename_i hc
      rw [h.1.resolve_right hc, List.length_cons, List.replicate_succ, ← ih h.2]

/-! ## §4. UUIDs. -/

/-- A UUID. -/
abbrev Uuid : Type := BitVec 128

namespace Uuid

/-- The 32 digits of a UUID, the most significant first. -/
def digits (u : Uuid) : List Nat := (Nat.digitsAppend 16 32 u.toNat).reverse

/-- The canonical text of a UUID. -/
def text (u : Uuid) : List Char := writeDigits uuidPlaces u.digits

theorem toNat_lt (u : Uuid) : u.toNat < 16 ^ 32 := by
  have hlt := u.isLt
  norm_num at hlt ⊢
  exact hlt

theorem length_digits (u : Uuid) : u.digits.length = 32 := by
  rw [digits, List.length_reverse]
  exact Nat.length_digitsAppend (by decide) 32 u.toNat_lt

theorem digits_lt (u : Uuid) : ∀ d ∈ u.digits, d < 16 := by
  intro d hd
  exact Nat.lt_of_mem_digitsAppend (by decide) 32 d (List.mem_reverse.1 hd)

theorem hexNumber_digits (u : Uuid) : hexNumber u.digits = u.toNat := by
  rw [hexNumber, digits, List.reverse_reverse, Nat.digitsAppend, Nat.ofDigits_append_replicate_zero,
    Nat.ofDigits_digits]

theorem fits_text (u : Uuid) : fits uuidPlaces u.text = true :=
  (writeDigits_spec u.length_digits u.digits_lt).1

theorem digitsOf_text (u : Uuid) : digitsOf u.text = u.digits :=
  (writeDigits_spec u.length_digits u.digits_lt).2

/-- The canonical text is in small letters. -/
theorem map_asciiLower_text (u : Uuid) : u.text.map asciiLower = u.text := by
  rw [← (digitsOf_of_fits u.fits_text).2.2, u.digitsOf_text]
  rfl

end Uuid

/-- The UUID that a text stands for, in any letter case. -/
def readUuid (cs : List Char) : Option Uuid :=
  if fits uuidPlaces cs then some (BitVec.ofNat 128 (hexNumber (digitsOf cs))) else none

theorem exists_readUuid_iff (s : String) :
    (∃ w, readUuid s.toList = some w) ↔ isUuid s = true := by
  rw [isUuid_eq_fits, readUuid]
  cases fits uuidPlaces s.toList <;> simp

/-- What is read has the digits of the text. -/
theorem digits_of_readUuid {w : Uuid} (h : readUuid cs = some w) :
    fits uuidPlaces cs = true ∧ w.digits = digitsOf cs := by
  unfold readUuid at h
  split at h
  · rename_i hfits
    refine ⟨hfits, ?_⟩
    obtain ⟨hlength, hlt, -⟩ := digitsOf_of_fits hfits
    have hcount : (digitsOf cs).length = 32 := hlength
    have hbound := hexNumber_lt hlt
    rw [hcount] at hbound
    have hnumber : w.toNat = hexNumber (digitsOf cs) := by
      cases h
      rw [BitVec.toNat_ofNat]
      exact Nat.mod_eq_of_lt (by norm_num at hbound ⊢; exact hbound)
    refine hexNumber_injective w.digits_lt hlt (by rw [hcount, w.length_digits]) ?_
    rw [w.hexNumber_digits, hnumber]
  · cases h

/-- **Reading accepts the canonical texts in any letter case**, and nothing
else. -/
theorem readUuid_eq_some_iff {w : Uuid} : readUuid cs = some w ↔ cs.map asciiLower = w.text := by
  constructor
  · intro h
    obtain ⟨hfits, hdigits⟩ := digits_of_readUuid h
    rw [Uuid.text, hdigits, (digitsOf_of_fits hfits).2.2]
  · intro h
    have hfits : fits uuidPlaces cs = true := by
      rw [← fits_map_asciiLower, h, w.fits_text]
    have hdigits : digitsOf cs = w.digits := by
      rw [← w.digitsOf_text, digitsOf_inj hfits w.fits_text, h, w.map_asciiLower_text]
    rw [readUuid, if_pos hfits, hdigits, w.hexNumber_digits, BitVec.ofNat_toNat, BitVec.setWidth_eq]

/-! ## §5. Ranges. -/

variable {bound start : String}

/-- The two parts of a text fit the places that are theirs. -/
theorem fits_take_drop (h : fits ps cs = true) {k : Nat} (hk : k ≤ ps.length) :
    fits (ps.take k) (cs.take k) = true ∧ fits (ps.drop k) (cs.drop k) = true := by
  have hlength : (cs.take k).length = k := by
    rw [List.length_take, length_of_fits h]
    omega
  rw [← List.take_append_drop k cs, fits_append, hlength, Bool.and_eq_true] at h
  exact h

theorem toList_padWith (h : fits ps start.toList = true) (bound : String) :
    (padWith bound start).toList = start.toList ++ bound.toList.drop start.toList.length := by
  rw [padWith, String.toList_append, String.toList_ofList,
    byteLength_eq_length (digit_or_hyphen_of_fits h)]

/-- A text is completed to a UUID just when it is the beginning of one. -/
theorem isUuid_padWith (hbound : fits uuidPlaces bound.toList = true) (start : String) :
    isUuid (padWith bound start) = fits (uuidPlaces.take start.toList.length) start.toList := by
  rw [isUuid_eq_fits, Bool.eq_iff_iff]
  constructor
  · intro h
    rw [padWith, String.toList_append, fits_append, Bool.and_eq_true] at h
    exact h.1
  · intro h
    have hlength := length_of_fits h
    rw [List.length_take] at hlength
    rw [toList_padWith h, fits_append, h, (fits_take_drop hbound (by omega)).2]
    rfl

/-- A text of hyphens and one digit that is repeated. -/
def IsUniform (digit : Char) (cs : List Char) : Prop :=
  fits uuidPlaces cs = true ∧ cs.all (fun c => c == digit || c == '-') = true

theorem isUniform_lowestUuid : IsUniform '0' lowestUuid.toList := ⟨by decide, by decide⟩

theorem isUniform_highestUuid : IsUniform 'f' highestUuid.toList := ⟨by decide, by decide⟩

/-- The UUID that a text is completed to has the digits of the text, and then
those of the bound. -/
theorem hexNumber_padWith {digit : Char} (hbound : IsUniform digit bound.toList)
    (hstart : fits (uuidPlaces.take start.toList.length) start.toList = true) {w : Uuid}
    (hw : readUuid (padWith bound start).toList = some w) :
    w.toNat = hexNumber (digitsOf start.toList ++
      List.replicate ((uuidPlaces.drop start.toList.length).count true) (hexValue digit)) := by
  have hlength := length_of_fits hstart
  rw [List.length_take] at hlength
  have hrest := (fits_take_drop hbound.1 (k := start.toList.length) (by omega)).2
  have huniform : ∀ c ∈ bound.toList.drop start.toList.length, c = digit ∨ c = '-' := by
    intro c hc
    have hall := List.all_eq_true.1 hbound.2 c (List.mem_of_mem_drop hc)
    simpa using hall
  rw [← w.hexNumber_digits, (digits_of_readUuid hw).2, toList_padWith hstart, digitsOf_append,
    digitsOf_uniform huniform, (digitsOf_of_fits hrest).1]

/-- Between the ends of the range of a text are the UUIDs that start with it. -/
theorem between_iff_isPrefix
    (hstart : fits (uuidPlaces.take start.toList.length) start.toList = true)
    {lowest highest : Uuid} (hlow : readUuid (padWith lowestUuid start).toList = some lowest)
    (hhigh : readUuid (padWith highestUuid start).toList = some highest) (u : Uuid) :
    lowest ≤ u ∧ u ≤ highest ↔ start.toList.map asciiLower <+: u.text := by
  have hlength := length_of_fits hstart
  rw [List.length_take] at hlength
  -- the text of `u` in two parts, the first as long as `start`
  obtain ⟨hfront, hback⟩ := fits_take_drop u.fits_text (k := start.toList.length) (by omega)
  have hnumber : u.toNat = hexNumber (digitsOf (u.text.take start.toList.length) ++
      digitsOf (u.text.drop start.toList.length)) := by
    rw [← digitsOf_append, List.take_append_drop, u.digitsOf_text, u.hexNumber_digits]
  have hrange := hexNumber_range_iff (digitsOf_of_fits hstart).2.1 (digitsOf_of_fits hfront).2.1
    (digitsOf_of_fits hback).2.1
    ((digitsOf_of_fits hfront).1.trans (digitsOf_of_fits hstart).1.symm)
  rw [(digitsOf_of_fits hback).1] at hrange
  rw [BitVec.le_def, BitVec.le_def, hexNumber_padWith isUniform_lowestUuid hstart hlow,
    hexNumber_padWith isUniform_highestUuid hstart hhigh, hnumber]
  refine hrange.trans ?_
  rw [digitsOf_inj hfront hstart, List.map_take, u.map_asciiLower_text, List.prefix_iff_eq_take,
    List.length_map, eq_comm]

/-- The beginning of a canonical text, in any letter case, fits the first
places. -/
theorem fits_of_isPrefix {u : Uuid} (h : cs.map asciiLower <+: u.text) :
    fits (uuidPlaces.take cs.length) cs = true := by
  have hlength := h.length_le
  rw [List.length_map, length_of_fits u.fits_text] at hlength
  rw [List.prefix_iff_eq_take, List.length_map] at h
  rw [← fits_map_asciiLower, h]
  exact (fits_take_drop u.fits_text hlength).1

/-- **The range of a text holds the UUIDs that start with it**, in any letter
case; the range of a text that no UUID starts with has no ends. -/
theorem isPrefix_text_iff (start : String) (u : Uuid) :
    start.toList.map asciiLower <+: u.text ↔
      ∃ lowest highest, readUuid (uuidRange start).1.toList = some lowest ∧
        readUuid (uuidRange start).2.toList = some highest ∧ lowest ≤ u ∧ u ≤ highest := by
  have hlow := isUuid_padWith isUniform_lowestUuid.1 start
  have hhigh := isUuid_padWith isUniform_highestUuid.1 start
  constructor
  · intro h
    have hstart := fits_of_isPrefix h
    obtain ⟨lowest, hl⟩ := (exists_readUuid_iff _).2 (hlow.trans hstart)
    obtain ⟨highest, hh⟩ := (exists_readUuid_iff _).2 (hhigh.trans hstart)
    exact ⟨lowest, highest, hl, hh, (between_iff_isPrefix hstart hl hh u).2 h⟩
  · rintro ⟨lowest, highest, hl, hh, hbetween⟩
    have hstart := hlow.symm.trans ((exists_readUuid_iff _).1 ⟨lowest, hl⟩)
    exact (between_iff_isPrefix hstart hl hh u).1 hbetween

/-- A beginning that ends inside a group, in capital letters, and a text with
a hyphen at a wrong place. -/
example :
    (readUuid (uuidRange "0000000A-0").2.toList).map Uuid.text =
        some "0000000a-0fff-ffff-ffff-ffffffffffff".toList ∧
      readUuid (uuidRange "0A-").2.toList = none := by
  decide +kernel

end CqlToSql.Text
