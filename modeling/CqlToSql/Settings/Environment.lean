/-
  CqlToSql.Settings.Environment
  ─────────────────────────────
  **Settings from environment variables.**  A variable whose name starts with
  the prefix of the program, in any letter case, gives the setting that the
  rest of its name spells in lower case.  Blanks around the name and around
  the rest do not count.  A rest of several parts with dots between them
  gives a table; one with an empty part gives nothing.

  The text of a variable is read as a value: a truth value, a text or
  character in quotes, a list in brackets, a table in braces, a number, or
  else plain text without the blanks around it.  A text that cannot be read
  to its end is taken as it stands.

  What stands in quotes before the first escape is cut after as many bytes as
  it has characters.  When that is in the middle of a character, the variable
  is broken, and no settings can be had from the environment at all.
-/
import CqlToSql.Settings.Escape
import CqlToSql.Settings.Setting
import CqlToSql.Text.Blank
import CqlToSql.Text.Split

namespace CqlToSql.Settings.Environment

open CqlToSql.Text

/-! ## §1. Numbers. -/

/-- An ASCII digit. -/
def isDigit (c : Char) : Bool := inRanges [(0x30, 0x39)] c

/-- One or more ASCII digits. -/
def isDigits (cs : List Char) : Bool := !cs.isEmpty && cs.all isDigit

/-- The number that ASCII digits spell. -/
def digitsValue (cs : List Char) : Nat := cs.foldl (fun n c => n * 10 + (c.toNat - 0x30)) 0

/-- The characters after an optional sign, and whether the sign is a minus. -/
def unsigned : List Char → Bool × List Char
  | '-' :: cs => (true, cs)
  | '+' :: cs => (false, cs)
  | cs => (false, cs)

/-- A whole number that fits into 64 bits. -/
def isInteger (cs : List Char) : Bool :=
  let (negative, digits) := unsigned cs
  isDigits digits
    && decide (digitsValue digits ≤ if negative then 1 <<< 63 else 1 <<< 64 - 1)

/-- Nothing, or an exponent. -/
def isExponent : List Char → Bool
  | [] => true
  | c :: cs => (c == 'e' || c == 'E') && isDigits (unsigned cs).2

/-- A number with a decimal point. -/
def isDecimal (cs : List Char) : Bool :=
  let cs := (unsigned cs).2
  match cs.dropWhile isDigit with
  | '.' :: rest =>
    (!(cs.takeWhile isDigit).isEmpty || !(rest.takeWhile isDigit).isEmpty)
      && isExponent (rest.dropWhile isDigit)
  | _ => false

/-- The value of text outside quotes, brackets and braces. -/
def bareValue (cs : List Char) : Setting :=
  let s := trim (String.ofList cs)
  if isDecimal s.toList || isInteger s.toList then .other else .text s

/-! ## §2. Values. -/

/-- A blank that separates values. -/
def isSpace (c : Char) : Bool :=
  c == ' ' || c == '\t' || c == '\n' || c == '\r' || c.toNat == 0x0C

/-- Ends text outside quotes. -/
def isSeparator (c : Char) : Bool := [',', '\x7b', '\x7d', '[', ']'].contains c

/-- May stand in the key of a table. -/
def isKeyChar (c : Char) : Bool :=
  inRanges [(0x30, 0x39), (0x41, 0x5A), (0x61, 0x7A)] c || c == '_' || c == '-'

/-- Why a value is not read. -/
inductive Refusal where
  /-- The text is not a value. -/
  | noValue
  /-- A text in quotes is cut inside a character. -/
  | broken
  deriving Repr, DecidableEq

/-- The characters up to the closing quote, and what follows the quote; a
quote after a backslash closes nothing. -/
def quotedBody : List Char → Option (List Char × List Char)
  | [] => none
  | '"' :: cs => some ([], cs)
  | '\\' :: c :: cs => (quotedBody cs).map fun (body, rest) => ('\\' :: c :: body, rest)
  | c :: cs => (quotedBody cs).map fun (body, rest) => (c :: body, rest)

/-- The text that characters and escapes spell. -/
def unescaped (fuel : Nat) (cs : List Char) : Option (List Char) :=
  match fuel, cs with
  | _, [] => some []
  | 0, _ => none
  | fuel + 1, '\\' :: cs =>
    match escaped cs with
    | some (c, cs) => (unescaped fuel cs).map (c :: ·)
    | none => none
  | fuel + 1, c :: cs => if isPrintable c then (unescaped fuel cs).map (c :: ·) else none

/-- The text of what stands in quotes. -/
def textOfBody (body : List Char) : Except Refusal (List Char) :=
  let before := body.takeWhile (· != '\\')
  let escapes := body.dropWhile (· != '\\')
  if !before.all isPrintable then .error .noValue
  else if escapes.isEmpty then .ok before
  else
    match firstBytes before.length before with
    | none => .error .broken
    | some kept =>
      match unescaped escapes.length escapes with
      | some text => .ok (kept ++ text)
      | none => .error .noValue

/-- The text after an opening quote, and what follows the closing one. -/
def quotedText (cs : List Char) : Except Refusal (List Char × List Char) :=
  match quotedBody cs with
  | none => .error .noValue
  | some (body, rest) => (textOfBody body).map fun text => (text, rest)

/-- What follows the key of a table. -/
def skipKey (cs : List Char) : Except Refusal (List Char) :=
  match cs with
  | '"' :: rest => (quotedText rest).map Prod.snd
  | _ =>
    if (cs.takeWhile isKeyChar).isEmpty then .error .noValue else .ok (cs.dropWhile isKeyChar)

mutual

/-- Reads a value and the blanks around it. -/
def value (fuel : Nat) (cs : List Char) : Except Refusal (Setting × List Char) :=
  match fuel with
  | 0 => .error .noValue
  | fuel + 1 =>
    let found : Except Refusal (Setting × List Char) :=
      match cs.dropWhile isSpace with
      | 't' :: 'r' :: 'u' :: 'e' :: rest => .ok (.flag true, rest)
      | 'f' :: 'a' :: 'l' :: 's' :: 'e' :: rest => .ok (.flag false, rest)
      | '\x7b' :: rest => (table fuel rest).map fun rest => (.other, rest)
      | '[' :: rest => (list fuel rest).map fun (items, rest) => (.list items, rest)
      | '"' :: rest => (quotedText rest).map fun (text, rest) => (.text (String.ofList text), rest)
      | '\'' :: c :: '\'' :: rest => .ok (.text (String.singleton c), rest)
      | '\'' :: _ => .error .noValue
      | rest => .ok (bareValue (rest.takeWhile (!isSeparator ·)), rest.dropWhile (!isSeparator ·))
    found.map fun (v, rest) => (v, rest.dropWhile isSpace)

/-- Reads the rest of a list. -/
def list (fuel : Nat) (cs : List Char) : Except Refusal (List Setting × List Char) :=
  match fuel with
  | 0 => .error .noValue
  | fuel + 1 =>
    match cs with
    | ']' :: rest => .ok ([], rest)
    | cs =>
      match value fuel cs with
      | .ok (v, ',' :: rest) => (list fuel rest).map fun (vs, rest) => (v :: vs, rest)
      | .ok (v, ']' :: rest) => .ok ([v], rest)
      | .ok _ => .error .noValue
      | .error refusal => .error refusal

/-- Reads the rest of a table. -/
def table (fuel : Nat) (cs : List Char) : Except Refusal (List Char) :=
  match fuel with
  | 0 => .error .noValue
  | fuel + 1 =>
    match cs with
    | '\x7d' :: rest => .ok rest
    | cs =>
      match (skipKey (cs.dropWhile isSpace)).map (·.dropWhile isSpace) with
      | .ok ('=' :: rest) =>
        match value fuel rest with
        | .ok (_, ',' :: rest) => table fuel rest
        | .ok (_, '\x7d' :: rest) => .ok rest
        | .ok _ => .error .noValue
        | .error refusal => .error refusal
      | .ok _ => .error .noValue
      | .error refusal => .error refusal

end

/-- The value of a variable; nothing if the variable is broken. -/
def ofText (s : String) : Option Setting :=
  match value (2 * s.toList.length + 2) s.toList with
  | .ok (v, []) => some v
  | .ok _ => some (.text s)
  | .error .noValue => some (.text s)
  | .error .broken => none

/-! ## §3. Variables. -/

/-- What the names of the program's variables start with. -/
def namePrefix : String := "CQL2PGJSON_"

/-- The text without the blanks around it, in lower case. -/
def plainName (name : String) : String := String.ofList ((trim name).toList.map asciiLower)

/-- The parts of the name of the setting that a variable gives. -/
def settingParts? (name : String) : Option (List String) :=
  match after (plainName namePrefix) (plainName name) with
  | none => none
  | some rest =>
    let parts := splitAt '.' (trim rest)
    if parts.any (· == "") then none else some parts

/-- The value under the first part of a name: a table if there are more. -/
def nested (v : Setting) : List String → Option (String × Setting)
  | [] => none
  | [part] => some (part, v)
  | part :: _ :: _ => some (part, .other)

/-- The settings that variables give; nothing if one of them is broken. -/
def source : List (String × String) → Option Source
  | [] => some []
  | (name, text) :: environment =>
    match settingParts? name with
    | none => source environment
    | some parts =>
      match ofText text, source environment with
      | some v, some rest => some ((nested v parts).toList ++ rest)
      | _, _ => none

end CqlToSql.Settings.Environment
