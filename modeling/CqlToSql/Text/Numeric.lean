/-
  CqlToSql.Text.Numeric
  ─────────────────────
  Numeric constants: an optional sign, then digits, or digits around a point
  with at least one digit on one of its sides, then optionally an exponent.

      +5    12.    .5    0.25    1e9    2.5E-3

  Digits are the decimal digits of any script.
-/
import CqlToSql.Text.Digit

namespace CqlToSql.Text

/-- The characters after an optional sign. -/
def dropSign : List Char → List Char
  | '+' :: cs => cs
  | '-' :: cs => cs
  | cs => cs

/-- One or more decimal digits. -/
def isDigits (cs : List Char) : Bool := !cs.isEmpty && cs.all isDecimalDigit

/-- Nothing at all, or an exponent mark with an optional sign and digits. -/
def isExponent : List Char → Bool
  | [] => true
  | c :: cs => (c == 'e' || c == 'E') && isDigits (dropSign cs)

/-- A numeric constant without its sign. -/
def isUnsignedNumeric (cs : List Char) : Bool :=
  let whole := cs.takeWhile isDecimalDigit
  match cs.dropWhile isDecimalDigit with
  | '.' :: rest =>
    let fraction := rest.takeWhile isDecimalDigit
    (!whole.isEmpty || !fraction.isEmpty) && isExponent (rest.dropWhile isDecimalDigit)
  | rest => !whole.isEmpty && isExponent rest

/-- Is a numeric constant. -/
def isNumeric (s : String) : Bool := isUnsignedNumeric (dropSign s.toList)

end CqlToSql.Text
