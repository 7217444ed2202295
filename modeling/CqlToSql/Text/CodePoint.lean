/-
  CqlToSql.Text.CodePoint
  ───────────────────────
  Sets of characters given by ranges of code points, the number of bytes a
  text takes in UTF-8, and comparison without regard to ASCII letter case.
-/

namespace CqlToSql.Text

/-- The code point of `c` lies in one of the ranges (both ends included). -/
def inRanges (ranges : List (Nat × Nat)) (c : Char) : Bool :=
  ranges.any fun r => decide (r.1 ≤ c.toNat) && decide (c.toNat ≤ r.2)

/-- The number of bytes the characters take in UTF-8. -/
def byteLength : List Char → Nat
  | [] => 0
  | c :: cs => c.utf8Size + byteLength cs

/-- The characters that the first `n` bytes hold in UTF-8; nothing if a
character goes on beyond them. -/
def firstBytes (n : Nat) : List Char → Option (List Char)
  | [] => if n = 0 then some [] else none
  | c :: cs =>
    if n = 0 then some []
    else if c.utf8Size ≤ n then (firstBytes (n - c.utf8Size) cs).map (c :: ·)
    else none

/-- The character with `A`–`Z` replaced by `a`–`z`. -/
def asciiLower (c : Char) : Char := if c.isUpper then c.toLower else c

/-- Equal up to the case of ASCII letters; all other characters must agree. -/
def sameAsciiFold (a b : String) : Bool := a.toList.map asciiLower == b.toList.map asciiLower

end CqlToSql.Text
