/-
  CqlToSql.Proofs.Json.Quoted
  ───────────────────────────
  **A text as a JSON string is read back.**  Between the quotes one character
  after the other is read, whether it is written as it is or with an escape, and
  the closing quote ends the token whatever stands behind it.

  Main statement: the JSON object that is written with one member is read as the
  object with this member alone (`parse_member`).
-/
import CqlToSql.Json.Quoted
import CqlToSql.Json.Reader
import Mathlib.Tactic.SplitIfs

namespace CqlToSql.Json

/-! ## §1. Steps of the automaton. -/

variable {mode : Mode} {c e : Char} {cs : List Char}

theorem tokensFrom_step (next : Mode × List Token) (h : step mode c = some next)
    (cs : List Char) : tokensFrom mode (c :: cs) = (tokensFrom next.1 cs).map (next.2 ++ ·) := by
  rw [tokensFrom, h]

/-- A step that completes no token. -/
theorem tokensFrom_silent (next : Mode) (h : step mode c = some (next, [])) (cs : List Char) :
    tokensFrom mode (c :: cs) = tokensFrom next cs := by
  rw [tokensFrom_step _ h]
  simp

/-- The part of a string that has been read, without half of a surrogate pair. -/
def Partial.ofChars (cs : List Char) : Partial := ⟨some cs.reverse, none⟩

theorem Partial.push_ofChars (cs : List Char) (c : Char) :
    (Partial.ofChars cs).push c = Partial.ofChars (cs ++ [c]) := by
  simp [Partial.push, Partial.ofChars]

theorem Partial.finish_ofChars (cs : List Char) :
    (Partial.ofChars cs).finish = some (String.ofList cs) := by
  simp [Partial.finish, Partial.ofChars]

/-- An escape of one letter. -/
theorem tokensFrom_escape (h : escapedChar? c = some e) (hu : c ≠ 'u') (rest : List Char) :
    tokensFrom (.string (.ofChars cs)) ('\\' :: c :: rest)
      = tokensFrom (.string (.ofChars (cs ++ [e]))) rest := by
  have hescape : step (.escape (.ofChars cs)) c = some (.string (.ofChars (cs ++ [e])), []) := by
    rw [step, if_neg hu, h, Option.map_some, Partial.push_ofChars]
  rw [tokensFrom_silent (.escape (.ofChars cs)) rfl, tokensFrom_silent _ hescape]

/-- The two digits that a number below 32 has behind two zeros. -/
theorem hexValue?_hexDigit : ∀ n < 32,
    hexValue? (hexDigit (n / 16)) = some (n / 16) ∧ hexValue? (hexDigit n) = some (n % 16) := by
  decide

/-- An escape with the number of a control character. -/
theorem tokensFrom_unit (hc : c.toNat < 32) (rest : List Char) :
    tokensFrom (.string (.ofChars cs))
        ('\\' :: 'u' :: '0' :: '0' :: hexDigit (c.toNat / 16) :: hexDigit c.toNat :: rest)
      = tokensFrom (.string (.ofChars (cs ++ [c]))) rest := by
  obtain ⟨hhigh, hlow⟩ := hexValue?_hexDigit c.toNat hc
  have hthird : step (.unit (.ofChars cs) 2 0) (hexDigit (c.toNat / 16))
      = some (.unit (.ofChars cs) 3 (c.toNat / 16), []) := by
    rw [step, hhigh]
    simp
  have hnumber : c.toNat / 16 * 16 + c.toNat % 16 = c.toNat := by omega
  have hpush : (Partial.ofChars cs).pushUnit c.toNat = .ofChars (cs ++ [c]) := by
    rw [Partial.pushUnit, if_neg (by omega), if_neg (by omega), Char.ofNat_toNat,
      Partial.push_ofChars]
  have hfourth : step (.unit (.ofChars cs) 3 (c.toNat / 16)) (hexDigit c.toNat)
      = some (.string (.ofChars (cs ++ [c])), []) := by
    rw [step, hlow, Option.map_some, if_pos rfl, hnumber, hpush]
  rw [tokensFrom_silent (.escape (.ofChars cs)) rfl,
    tokensFrom_silent (.unit (.ofChars cs) 0 0) rfl,
    tokensFrom_silent (.unit (.ofChars cs) 1 0) rfl,
    tokensFrom_silent (.unit (.ofChars cs) 2 0) rfl, tokensFrom_silent _ hthird,
    tokensFrom_silent _ hfourth]

/-! ## §2. Strings. -/

/-- A character is read back as itself. -/
theorem tokensFrom_quoteChar (c : Char) (rest : List Char) :
    tokensFrom (.string (.ofChars cs)) (quoteChar c ++ rest)
      = tokensFrom (.string (.ofChars (cs ++ [c]))) rest := by
  have hletter : ∀ {l}, escapedChar? l = some c → l ≠ 'u' →
      tokensFrom (.string (.ofChars cs)) (['\\', l] ++ rest)
        = tokensFrom (.string (.ofChars (cs ++ [c]))) rest :=
    fun h hu => tokensFrom_escape h hu rest
  have hcode : ∀ {n}, c.toNat = n → Char.ofNat n = c := by
    rintro n rfl
    exact Char.ofNat_toNat c
  unfold quoteChar
  split_ifs with hquote hbackslash h08 h09 h0A h0C h0D hcontrol
  · exact hletter (by rw [hquote]; rfl) (by decide)
  · exact hletter (by rw [hbackslash]; rfl) (by decide)
  · exact hletter (by rw [← hcode h08]; rfl) (by decide)
  · exact hletter (by rw [← hcode h09]; rfl) (by decide)
  · exact hletter (by rw [← hcode h0A]; rfl) (by decide)
  · exact hletter (by rw [← hcode h0C]; rfl) (by decide)
  · exact hletter (by rw [← hcode h0D]; rfl) (by decide)
  · exact tokensFrom_unit hcontrol rest
  · refine tokensFrom_silent _ ?_ rest
    rw [step, if_neg hquote, if_neg hbackslash, if_neg hcontrol, Partial.push_ofChars]

/-- The characters of a text are read back one after the other. -/
theorem tokensFrom_flatMap_quoteChar (text rest : List Char) :
    tokensFrom (.string (.ofChars cs)) (text.flatMap quoteChar ++ rest)
      = tokensFrom (.string (.ofChars (cs ++ text))) rest := by
  induction text generalizing cs with
  | nil => simp
  | cons c text ih =>
    rw [List.flatMap_cons, List.append_assoc, tokensFrom_quoteChar, ih, List.append_assoc]
    rfl

/-- A text as a JSON string is one token, whatever stands behind it. -/
theorem tokensFrom_quote (s : String) (rest : List Char) :
    tokensFrom .between ((quote s).toList ++ rest)
      = (tokensFrom .between rest).map (.string (some s) :: ·) := by
  have hchars : (quote s).toList ++ rest = '"' :: (s.toList.flatMap quoteChar ++ '"' :: rest) := by
    simp [quote]
  have hclose : step (.string (.ofChars s.toList)) '"' = some (.between, [.string (some s)]) := by
    rw [step, if_pos rfl, Partial.finish_ofChars, String.ofList_toList]
  rw [hchars, tokensFrom_silent (.string (.ofChars [])) rfl, tokensFrom_flatMap_quoteChar,
    List.nil_append, tokensFrom_step _ hclose]
  rfl

/-! ## §3. Objects. -/

theorem tokens_member (name value : String) :
    tokens ("\x7b" ++ quote name ++ ": " ++ quote value ++ "\x7d")
      = some [.openBrace, .string (some name), .colon, .string (some value), .closeBrace] := by
  have hchars : ("\x7b" ++ quote name ++ ": " ++ quote value ++ "\x7d").toList
      = '\x7b' :: ((quote name).toList ++ ':' :: ' ' :: ((quote value).toList ++ ['\x7d'])) := by
    simp
  rw [tokens, hchars, tokensFrom_step (.between, [.openBrace]) rfl, tokensFrom_quote,
    tokensFrom_step (.between, [.colon]) rfl, tokensFrom_silent .between rfl, tokensFrom_quote]
  rfl

/-- **The object with one member is read back.** -/
theorem parse_member (name value : String) :
    Value.parse ("\x7b" ++ quote name ++ ": " ++ quote value ++ "\x7d")
      = some (.object [(some name, .string (some value))]) := by
  rw [Value.parse, tokens_member]
  rfl

end CqlToSql.Json
