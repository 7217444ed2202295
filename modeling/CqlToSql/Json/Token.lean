/-
  CqlToSql.Json.Token
  ───────────────────
  The tokens of a JSON text.  The text is read one character at a time by an
  automaton whose `Mode` tells what it is in the middle of, so that reading
  is a recursion on the text itself.

  Words and numbers are collected first and judged when they end; inside a
  string the automaton puts surrogate pairs together.
-/
import CqlToSql.Text.Uuid

namespace CqlToSql.Json

open CqlToSql.Text

/-! ## §1. Tokens. -/

/-- A token of JSON text. -/
inductive Token where
  | openBrace
  | closeBrace
  | openBracket
  | closeBracket
  | colon
  | comma
  | null
  | bool (b : Bool)
  | number (spelling : String)
  /-- A string; `none` if it holds half of a surrogate pair. -/
  | string (text : Option String)
  deriving Repr, DecidableEq

/-! ## §2. Numbers and words. -/

/-- An ASCII digit. -/
def isDigit (c : Char) : Bool := inRanges [(0x30, 0x39)] c

/-- Nothing, or an exponent. -/
def isNumberExponent : List Char → Bool
  | [] => true
  | c :: cs =>
    let digits := match cs with
      | '+' :: ds => ds
      | '-' :: ds => ds
      | ds => ds
    (c == 'e' || c == 'E') && !digits.isEmpty && digits.all isDigit

/-- What may follow the whole part of a number. -/
def isNumberTail : List Char → Bool
  | '.' :: cs =>
    !(cs.takeWhile isDigit).isEmpty && isNumberExponent (cs.dropWhile isDigit)
  | cs => isNumberExponent cs

/-- A number without its sign; it has no superfluous zero in front. -/
def isUnsignedNumber : List Char → Bool
  | '0' :: cs => isNumberTail cs
  | cs => !(cs.takeWhile isDigit).isEmpty && isNumberTail (cs.dropWhile isDigit)

/-- Is a JSON number. -/
def isNumber : List Char → Bool
  | '-' :: cs => isUnsignedNumber cs
  | cs => isUnsignedNumber cs

/-- The token of a run of characters outside strings. -/
def bareToken (cs : List Char) : Option Token :=
  if cs = ['n', 'u', 'l', 'l'] then some .null
  else if cs = ['t', 'r', 'u', 'e'] then some (.bool true)
  else if cs = ['f', 'a', 'l', 's', 'e'] then some (.bool false)
  else if isNumber cs then some (.number (String.ofList cs))
  else none

/-! ## §3. The text of a string. -/

/-- The part of a string that has been read. -/
structure Partial where
  /-- Characters so far, the last one first; `none` after a stray half. -/
  chars : Option (List Char)
  /-- A first half of a surrogate pair that waits for the second. -/
  half : Option Nat

/-- Nothing has been read. -/
def Partial.empty : Partial := ⟨some [], none⟩

/-- One more character.  A waiting half is a stray one then. -/
def Partial.push (p : Partial) (c : Char) : Partial :=
  match p.half with
  | none => ⟨p.chars.map (c :: ·), none⟩
  | some _ => ⟨none, none⟩

/-- One more 16-bit unit, given by its number. -/
def Partial.pushUnit (p : Partial) (n : Nat) : Partial :=
  if 0xD800 ≤ n ∧ n < 0xDC00 then
    match p.half with
    | none => ⟨p.chars, some n⟩
    | some _ => ⟨none, some n⟩
  else if 0xDC00 ≤ n ∧ n < 0xE000 then
    match p.half with
    | some h =>
      ⟨p.chars.map (Char.ofNat (0x10000 + (h - 0xD800) * 0x400 + (n - 0xDC00)) :: ·), none⟩
    | none => ⟨none, none⟩
  else p.push (Char.ofNat n)

/-- The text of the whole string. -/
def Partial.finish (p : Partial) : Option String :=
  match p.half with
  | none => p.chars.map fun cs => String.ofList cs.reverse
  | some _ => none

/-- The number a hexadecimal digit stands for. -/
def hexValue? (c : Char) : Option Nat :=
  let n := c.toNat
  if 0x30 ≤ n ∧ n ≤ 0x39 then some (n - 0x30)
  else if 0x41 ≤ n ∧ n ≤ 0x46 then some (n - 0x37)
  else if 0x61 ≤ n ∧ n ≤ 0x66 then some (n - 0x57)
  else none

/-- The character a one-letter escape stands for. -/
def escapedChar? (c : Char) : Option Char :=
  if c = '"' ∨ c = '\\' ∨ c = '/' then some c
  else if c = 'b' then some (Char.ofNat 0x08)
  else if c = 'f' then some (Char.ofNat 0x0C)
  else if c = 'n' then some (Char.ofNat 0x0A)
  else if c = 'r' then some (Char.ofNat 0x0D)
  else if c = 't' then some (Char.ofNat 0x09)
  else none

/-! ## §4. The automaton. -/

/-- What the automaton is in the middle of. -/
inductive Mode where
  | between
  /-- A run outside strings, its last character first. -/
  | bare (run : List Char)
  | string (text : Partial)
  /-- After a backslash. -/
  | escape (text : Partial)
  /-- After `\u`, with the digits read and the number they make so far. -/
  | unit (text : Partial) (digits value : Nat)

/-- A blank of JSON text. -/
def isSpace (c : Char) : Bool := c == ' ' || c == '\n' || c == '\t' || c == '\r'

/-- The token a single character is. -/
def punctuation? (c : Char) : Option Token :=
  if c = '\x7b' then some .openBrace
  else if c = '\x7d' then some .closeBrace
  else if c = '[' then some .openBracket
  else if c = ']' then some .closeBracket
  else if c = ':' then some .colon
  else if c = ',' then some .comma
  else none

/-- The mode and the tokens after a character between tokens. -/
def stepBetween (c : Char) : Mode × List Token :=
  if isSpace c then (.between, [])
  else if c = '"' then (.string .empty, [])
  else
    match punctuation? c with
    | some t => (.between, [t])
    | none => (.bare [c], [])

/-- The mode and the tokens after one more character. -/
def step : Mode → Char → Option (Mode × List Token)
  | .between, c => some (stepBetween c)
  | .bare run, c =>
    if isSpace c || c == '"' || (punctuation? c).isSome then
      (bareToken run.reverse).map fun t =>
        let (mode, tokens) := stepBetween c
        (mode, t :: tokens)
    else some (.bare (c :: run), [])
  | .string text, c =>
    if c = '"' then some (.between, [.string text.finish])
    else if c = '\\' then some (.escape text, [])
    else if c.toNat < 0x20 then none
    else some (.string (text.push c), [])
  | .escape text, c =>
    if c = 'u' then some (.unit text 0 0, [])
    else (escapedChar? c).map fun e => (.string (text.push e), [])
  | .unit text digits value, c =>
    (hexValue? c).map fun v =>
      if digits = 3 then (.string (text.pushUnit (value * 16 + v)), [])
      else (.unit text (digits + 1) (value * 16 + v), [])

/-- The tokens of what is left of a text. -/
def tokensFrom : Mode → List Char → Option (List Token)
  | .between, [] => some []
  | .bare run, [] => (bareToken run.reverse).map ([·])
  | _, [] => none
  | mode, c :: cs =>
    match step mode c with
    | none => none
    | some (mode', tokens) => (tokensFrom mode' cs).map (tokens ++ ·)

/-- The tokens of a JSON text. -/
def tokens (text : String) : Option (List Token) := tokensFrom .between text.toList

end CqlToSql.Json
