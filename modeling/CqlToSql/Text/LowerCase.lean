/-
  CqlToSql.Text.LowerCase
  ───────────────────────
  Lower-casing of a text, by the full Unicode mapping.

  Three characters need more than a table of single characters:

      U+0130 (capital I with a dot)  becomes TWO characters, `i` and U+0307;
      U+212A (Kelvin sign)           becomes the ASCII letter `k`;
      U+03A3 (capital sigma)         becomes the final sigma at the end of a
                                     word, and the plain one elsewhere.

  A sigma ends a word when the nearest character before it that is not
  looked through has a case, and the nearest such character after it has not.
-/
import CqlToSql.Text.CaseData
import CqlToSql.Text.CodePoint

namespace CqlToSql.Text

/-! ## §1. One character. -/

/-- The code point this run maps `n` to, if `n` belongs to the run. -/
def CaseRun.apply (run : CaseRun) (n : Nat) : Option Nat :=
  if run.first ≤ n ∧ n ≤ run.last ∧ (n - run.first) % run.step = 0 then
    some (run.image + (n - run.first))
  else none

/-- The lower-case form of a character, its neighbours aside. -/
def lowerChar (c : Char) : List Char :=
  if c.toNat < 0x80 then [asciiLower c]
  else if c.toNat = 0x130 then ['i', Char.ofNat 0x307]
  else
    match lowerRuns.findSome? (CaseRun.apply · c.toNat) with
    | some n => [Char.ofNat n]
    | none => [c]

/-- Has a case and is not looked through. -/
def isCased (c : Char) : Bool := inRanges casedRanges c

/-- Is looked through when the neighbourhood of a letter is examined. -/
def isCaseIgnorable (c : Char) : Bool := inRanges caseIgnorableRanges c

/-! ## §2. A text. -/

/-- The first character that is not looked through has a case. -/
def startsCased (cs : List Char) : Bool :=
  match cs.dropWhile isCaseIgnorable with
  | [] => false
  | c :: _ => isCased c

/-- Capital sigma. -/
def capitalSigma : Char := Char.ofNat 0x3A3

/-- Lower-cases `cs`, where `afterCased` tells whether the text before it ends
with a cased character (up to characters that are looked through). -/
def lowerFrom (afterCased : Bool) : List Char → List Char
  | [] => []
  | c :: cs =>
    let lowered :=
      if c = capitalSigma then
        if afterCased && !startsCased cs then [Char.ofNat 0x3C2] else [Char.ofNat 0x3C3]
      else lowerChar c
    lowered ++ lowerFrom (if isCaseIgnorable c then afterCased else isCased c) cs

/-- The text in lower case. -/
def lowerCase (s : String) : String := String.ofList (lowerFrom false s.toList)

end CqlToSql.Text
