/-
  CqlToSql.Settings.Escape
  ────────────────────────
  **Text in double quotes**: which characters stand for themselves, and which
  character a backslash and what follows it stand for.

      \b \t \n \f \r \" \\      — one letter
      \uXXXX  \UXXXXXXXX        — a code point in four or eight hexadecimal
                                  digits; surrogates are none
-/
import CqlToSql.Text.Uuid

namespace CqlToSql.Settings

open CqlToSql.Text

/-- Stands for itself in a text of one line: a tab, or no control character. -/
def isPrintable (c : Char) : Bool := c == '\t' || (decide (0x20 ≤ c.toNat) && c.toNat != 0x7F)

/-- The number that hexadecimal digits spell. -/
def hexNumber : List Char → Option Nat
  | [] => some 0
  | cs => cs.foldl (fun n c =>
      if isHexDigit c then
        n.map fun n => n * 16 +
          (if c.toNat ≤ 0x39 then c.toNat - 0x30
           else if c.toNat ≤ 0x46 then c.toNat - 0x37
           else c.toNat - 0x57)
      else none) (some 0)

/-- The character with that code point. -/
def scalar? (n : Nat) : Option Char := if n.isValidChar then some (Char.ofNat n) else none

/-- The character of an escape, given after its backslash, and what follows. -/
def escaped : List Char → Option (Char × List Char)
  | 'b' :: cs => some (Char.ofNat 0x08, cs)
  | 't' :: cs => some ('\t', cs)
  | 'n' :: cs => some ('\n', cs)
  | 'f' :: cs => some (Char.ofNat 0x0C, cs)
  | 'r' :: cs => some ('\r', cs)
  | '"' :: cs => some ('"', cs)
  | '\\' :: cs => some ('\\', cs)
  | 'u' :: cs => digits 4 cs
  | 'U' :: cs => digits 8 cs
  | _ => none
where
  /-- The character that `n` hexadecimal digits spell. -/
  digits (n : Nat) (cs : List Char) : Option (Char × List Char) :=
    if (cs.take n).length = n then
      ((hexNumber (cs.take n)).bind scalar?).map fun c => (c, cs.drop n)
    else none

end CqlToSql.Settings
