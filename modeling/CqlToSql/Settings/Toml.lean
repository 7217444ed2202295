/-
  CqlToSql.Settings.Toml
  ──────────────────────
  **Settings from a TOML document.**  The document is read line by line:
  blank lines and comments, headers of tables and of elements of arrays of
  tables, and keys with values.  Only the keys outside tables are settings,
  but the whole document has to be well formed, and no key or table may be
  given twice.

  Every reader takes the characters that are left and returns those it
  leaves.  Readers of nested values get fuel; a document has fewer levels
  than characters.  Values and keys of `nestingLimit` levels are refused, and
  so are positive numbers that are too large for a double.
-/
import CqlToSql.Settings.Escape
import CqlToSql.Settings.Setting

namespace CqlToSql.Settings.Toml

open CqlToSql.Text

/-! ## §1. Blanks and comments. -/

/-- A blank inside a line. -/
def isSpace (c : Char) : Bool := c == ' ' || c == '\t'

/-- The characters after blanks. -/
def skipSpaces (cs : List Char) : List Char := cs.dropWhile isSpace

/-- The characters after a comment, if there is one. -/
def skipComment : List Char → List Char
  | '#' :: cs => cs.dropWhile isPrintable
  | cs => cs

/-- The characters after the end of the line, with blanks and a comment
before it; nothing if something else stands on the line. -/
def endLine (cs : List Char) : Option (List Char) :=
  match skipComment (skipSpaces cs) with
  | [] => some []
  | '\n' :: rest => some rest
  | '\r' :: '\n' :: rest => some rest
  | _ => none

/-- The characters after blanks, comments and ends of lines. -/
def skipLines (fuel : Nat) (cs : List Char) : List Char :=
  match fuel with
  | 0 => cs
  | fuel + 1 =>
    match skipComment (skipSpaces cs) with
    | '\n' :: rest => skipLines fuel rest
    | '\r' :: '\n' :: rest => skipLines fuel rest
    | rest => rest

/-! ## §2. Texts. -/

/-- The text in double quotes on one line, after the opening quote. -/
def basicText (fuel : Nat) (cs : List Char) : Option (List Char × List Char) :=
  match fuel, cs with
  | _ + 1, '"' :: rest => some ([], rest)
  | fuel + 1, '\\' :: rest =>
    match escaped rest with
    | some (c, rest) => (basicText fuel rest).map fun (text, rest) => (c :: text, rest)
    | none => none
  | fuel + 1, c :: rest =>
    if isPrintable c then (basicText fuel rest).map fun (text, rest) => (c :: text, rest) else none
  | _, _ => none

/-- The text in single quotes on one line, after the opening quote. -/
def literalText (cs : List Char) : Option (List Char × List Char) :=
  let text := cs.takeWhile fun c => c != '\'' && isPrintable c
  match cs.dropWhile fun c => c != '\'' && isPrintable c with
  | '\'' :: rest => some (text, rest)
  | _ => none

/-- The characters after blanks and ends of lines. -/
def skipBreaks : List Char → List Char
  | ' ' :: cs => skipBreaks cs
  | '\t' :: cs => skipBreaks cs
  | '\n' :: cs => skipBreaks cs
  | '\r' :: '\n' :: cs => skipBreaks cs
  | cs => cs

/-- The text of several lines in three quotes of the kind `quote`, after the
opening quotes.  Up to two quotes may stand before the closing ones.  Every
line ends in a single line feed, however it is written.  In double quotes
escapes count, and a backslash at the end of a line removes the blanks and
line ends after it. -/
def longText (quote : Char) (fuel : Nat) (cs : List Char) : Option (List Char × List Char) :=
  match fuel with
  | 0 => none
  | fuel + 1 =>
    let quotes := cs.takeWhile (· == quote)
    if quotes.length ≥ 3 then
      let extra := min (quotes.length - 3) 2
      some (quotes.take extra, cs.drop (extra + 3))
    else
      match cs with
      | [] => none
      | '\r' :: '\n' :: rest =>
        (longText quote fuel rest).map fun (text, rest) => ('\n' :: text, rest)
      | '\\' :: rest =>
        if quote = '"' then
          match skipSpaces rest with
          | '\n' :: _ => longText quote fuel (skipBreaks rest)
          | '\r' :: '\n' :: _ => longText quote fuel (skipBreaks rest)
          | _ =>
            match escaped rest with
            | some (c, rest) => (longText quote fuel rest).map fun (text, rest) => (c :: text, rest)
            | none => none
        else (longText quote fuel rest).map fun (text, rest) => ('\\' :: text, rest)
      | c :: rest =>
        if isPrintable c || c == '\n' then
          (longText quote fuel rest).map fun (text, rest) => (c :: text, rest)
        else none

/-- The characters after one end of a line, if they start with it. -/
def skipFirstLineEnd : List Char → List Char
  | '\n' :: cs => cs
  | '\r' :: '\n' :: cs => cs
  | cs => cs

/-- A text in any kind of quotes. -/
def text (fuel : Nat) : List Char → Option (List Char × List Char)
  | '"' :: '"' :: '"' :: cs => longText '"' fuel (skipFirstLineEnd cs)
  | '\'' :: '\'' :: '\'' :: cs => longText '\'' fuel (skipFirstLineEnd cs)
  | '"' :: cs => basicText fuel cs
  | '\'' :: cs => literalText cs
  | _ => none

/-! ## §3. Numbers and dates. -/

/-- An ASCII digit. -/
def isDigit (c : Char) : Bool := inRanges [(0x30, 0x39)] c

/-- Digits of a kind, with single underscores between them. -/
def isDigitRun (digit : Char → Bool) (cs : List Char) : Bool :=
  (splitChars '_' cs).all fun group => !group.isEmpty && group.all digit

/-- The number that the digits spell in the base, underscores left out. -/
def runValue (base : Nat) (cs : List Char) : Nat :=
  (cs.filter (· != '_')).foldl (fun n c =>
    n * base + (if c.toNat ≤ 0x39 then c.toNat - 0x30
      else if c.toNat ≤ 0x46 then c.toNat - 0x37 else c.toNat - 0x57)) 0

/-- Decimal digits without a superfluous zero in front. -/
def isDecimalRun (cs : List Char) : Bool :=
  isDigitRun isDigit cs && (cs.length == 1 || cs.head? != some '0')

/-- A whole number that fits into 64 bits with a sign. -/
def isInteger : List Char → Bool
  | '0' :: 'x' :: cs => isDigitRun isHexDigit cs && decide (runValue 16 cs < 1 <<< 63)
  | '0' :: 'o' :: cs =>
    isDigitRun (inRanges [(0x30, 0x37)]) cs && decide (runValue 8 cs < 1 <<< 63)
  | '0' :: 'b' :: cs =>
    isDigitRun (inRanges [(0x30, 0x31)]) cs && decide (runValue 2 cs < 1 <<< 63)
  | '-' :: cs => isDecimalRun cs && decide (runValue 10 cs ≤ 1 <<< 63)
  | '+' :: cs => isDecimalRun cs && decide (runValue 10 cs < 1 <<< 63)
  | cs => isDecimalRun cs && decide (runValue 10 cs < 1 <<< 63)

/-- The characters after an optional sign. -/
def dropSign : List Char → List Char
  | '+' :: cs => cs
  | '-' :: cs => cs
  | cs => cs

/-- Exponent digits after an optional sign. -/
def isExponentRun (cs : List Char) : Bool := isDigitRun isDigit (dropSign cs)

/-- The number that the digits of an exponent spell. -/
def exponentValue : List Char → Int
  | '-' :: cs => -(runValue 10 cs : Int)
  | cs => (runValue 10 (dropSign cs) : Int)

/-- The least number that a double takes for infinite: half a step above the
greatest finite one. -/
def doubleLimit : Nat := 1 <<< 1024 - 1 <<< 970

/-- The decimal digits, taken times ten to the power `scale`, reach the limit
of a double.  The limit has 309 digits, so only numbers of that size are
compared with it. -/
def isTooLarge (digits : List Char) (scale : Int) : Bool :=
  let significant := (digits.filter (· != '_')).dropWhile (· == '0')
  let size : Int := significant.length + scale
  if significant.isEmpty || decide (size < 309) then false
  else if 309 < size then true
  else decide (doubleLimit * Nat.pow 10 (-scale).toNat
    ≤ runValue 10 significant * Nat.pow 10 scale.toNat)

/-- A number without a sign that has a fraction or an exponent: the digits of
the number, and the power of ten they are taken times. -/
def floatParts (cs : List Char) : Option (List Char × Int) :=
  let isMark (c : Char) : Bool := c == 'e' || c == 'E'
  let mantissa := cs.takeWhile (!isMark ·)
  let exponent := cs.dropWhile (!isMark ·)
  let power : Option Int := match exponent with
    | [] => some 0
    | _ :: digits => if isExponentRun digits then some (exponentValue digits) else none
  match power, cutFirstChars '.' mantissa with
  | none, _ => none
  | some power, some (whole, fraction) =>
    if isDecimalRun whole && isDigitRun isDigit fraction then
      some (whole ++ fraction, power - ((fraction.filter (· != '_')).length : Int))
    else none
  | some power, none =>
    if isDecimalRun mantissa && !exponent.isEmpty then some (mantissa, power) else none

/-- A number with a fraction or an exponent, or an infinite or undefined one. -/
def isFloat (cs : List Char) : Bool :=
  let unsigned := dropSign cs
  if unsigned = ['i', 'n', 'f'] || unsigned = ['n', 'a', 'n'] then true
  else
    match floatParts unsigned with
    | none => false
    | some (digits, scale) => cs.head? == some '-' || !isTooLarge digits scale

/-- The number of two digits, if it is within the bounds. -/
def twoDigits (low high : Nat) (a b : Char) : Bool :=
  isDigit a && isDigit b
    && decide (low ≤ runValue 10 [a, b]) && decide (runValue 10 [a, b] ≤ high)

/-- The days of a month. -/
def daysIn (year month : Nat) : Nat :=
  if month = 2 then (if year % 4 = 0 ∧ (year % 100 ≠ 0 ∨ year % 400 = 0) then 29 else 28)
  else if month ∈ [4, 6, 9, 11] then 30
  else 31

/-- A date. -/
def isDate : List Char → Bool
  | [y1, y2, y3, y4, '-', m1, m2, '-', d1, d2] =>
    [y1, y2, y3, y4].all isDigit && twoDigits 1 12 m1 m2
      && twoDigits 1 (daysIn (runValue 10 [y1, y2, y3, y4]) (runValue 10 [m1, m2])) d1 d2
  | _ => false

/-- Fractions of a second, or nothing. -/
def isSecondFraction : List Char → Bool
  | [] => true
  | '.' :: cs => !cs.isEmpty && cs.all isDigit
  | _ => false

/-- A time of day. -/
def isTime : List Char → Bool
  | h1 :: h2 :: ':' :: m1 :: m2 :: ':' :: s1 :: s2 :: rest =>
    twoDigits 0 23 h1 h2 && twoDigits 0 59 m1 m2 && twoDigits 0 60 s1 s2 && isSecondFraction rest
  | _ => false

/-- The time of day without an offset at its end. -/
def dropOffset (cs : List Char) : List Char :=
  match cs.reverse with
  | 'Z' :: before => before.reverse
  | 'z' :: before => before.reverse
  | m2 :: m1 :: ':' :: h2 :: h1 :: sign :: before =>
    if (sign == '+' || sign == '-') && twoDigits 0 23 h1 h2 && twoDigits 0 59 m1 m2 then
      before.reverse
    else cs
  | _ => cs

/-- A date, a time of day, or both. -/
def isMoment (cs : List Char) : Bool :=
  isDate cs || isTime cs
    || (isDate (cs.take 10)
        && match cs.drop 10 with
          | mark :: rest => (mark == 'T' || mark == 't' || mark == ' ') && isTime (dropOffset rest)
          | [] => false)

/-- May stand in a number, a date or a truth value. -/
def isBareChar (c : Char) : Bool :=
  inRanges [(0x30, 0x39), (0x41, 0x5A), (0x61, 0x7A)] c || ['+', '-', '.', ':', '_'].contains c

/-- The characters of a value outside quotes, and what follows them.  A single
space may stand between a date and a time. -/
def bareRun (cs : List Char) : List Char × List Char :=
  let run := cs.takeWhile isBareChar
  let rest := cs.dropWhile isBareChar
  match rest with
  | ' ' :: c :: more =>
    if isDate run && isDigit c then
      (run ++ ' ' :: (c :: more).takeWhile isBareChar, (c :: more).dropWhile isBareChar)
    else (run, rest)
  | _ => (run, rest)

/-- A value outside quotes. -/
def bare (cs : List Char) : Option (Setting × List Char) :=
  let (run, rest) := bareRun cs
  if run = ['t', 'r', 'u', 'e'] then some (.flag true, rest)
  else if run = ['f', 'a', 'l', 's', 'e'] then some (.flag false, rest)
  else if isInteger run || isFloat run || isMoment run then some (.other, rest)
  else none

/-! ## §4. Keys. -/

/-- May stand in a key outside quotes. -/
def isKeyChar (c : Char) : Bool :=
  inRanges [(0x30, 0x39), (0x41, 0x5A), (0x61, 0x7A)] c || c == '_' || c == '-'

/-- One part of a key. -/
def keyPart (cs : List Char) : Option (String × List Char) :=
  match cs with
  | '"' :: rest => (basicText (rest.length + 1) rest).map fun (t, rest) => (String.ofList t, rest)
  | '\'' :: rest => (literalText rest).map fun (t, rest) => (String.ofList t, rest)
  | _ =>
    if (cs.takeWhile isKeyChar).isEmpty then none
    else some (String.ofList (cs.takeWhile isKeyChar), cs.dropWhile isKeyChar)

/-- The number of levels at which values and keys are refused. -/
def nestingLimit : Nat := 80

/-- The parts of a key, with dots between them and blanks around the dots. -/
def keyParts (fuel : Nat) (cs : List Char) : Option (List String × List Char) :=
  match fuel with
  | 0 => none
  | fuel + 1 =>
    match keyPart (skipSpaces cs) with
    | none => none
    | some (part, rest) =>
      match skipSpaces rest with
      | '.' :: rest => (keyParts fuel rest).map fun (parts, rest) => (part :: parts, rest)
      | rest => some ([part], rest)

/-- A key with fewer parts than there may be levels. -/
def key (cs : List Char) : Option (List String × List Char) :=
  match keyParts cs.length cs with
  | some (parts, rest) => if parts.length < nestingLimit then some (parts, rest) else none
  | none => none

/-! ## §5. Tables. -/

/-- How a table came to be. -/
inductive Origin where
  /-- Named on the way to another table. -/
  | passed
  /-- By a header of its own. -/
  | header
  /-- By a key with dots. -/
  | dotted
  deriving DecidableEq

/-- What a key leads to. -/
inductive Node where
  | value (v : Setting)
  | table (origin : Origin) (entries : List (String × Node))
  /-- An array of tables, the last one first. -/
  | tables (items : List (List (String × Node)))

/-- Keys with what they lead to. -/
abbrev Entries : Type := List (String × Node)

/-- What a key leads to. -/
def find? (entries : Entries) (key : String) : Option Node :=
  (entries.find? fun e => e.1 == key).map Prod.snd

/-- The entries with another node under a key. -/
def put (entries : Entries) (key : String) (node : Node) : Entries :=
  if entries.any fun e => e.1 == key then
    entries.map fun e => if e.1 == key then (key, node) else e
  else entries ++ [(key, node)]

/-- Puts a value under a key with dots.  A table on the way must not have a
header of its own, and the one that takes the value must come from a key
with dots; an array of tables on the way stands for its last table. -/
def assign (entries : Entries) (v : Setting) : List String → Option Entries
  | [] => none
  | [k] => match find? entries k with
    | none => some (put entries k (.value v))
    | some _ => none
  | k :: next :: rest =>
    match find? entries k with
    | none => (assign [] v (next :: rest)).map fun es => put entries k (.table .dotted es)
    | some (.table origin es) =>
      if origin = .header || (rest.isEmpty && origin != .dotted) then none
      else (assign es v (next :: rest)).map fun es => put entries k (.table origin es)
    | some (.tables (last :: earlier)) =>
      if rest.isEmpty then none
      else (assign last v (next :: rest)).map fun es => put entries k (.tables (es :: earlier))
    | some _ => none

/-- Changes the table at the end of a path of headers. -/
def within (change : Entries → Option Entries) : List String → Entries → Option Entries
  | [], entries => change entries
  | k :: rest, entries =>
    match find? entries k with
    | none => (within change rest []).map fun es => put entries k (.table .passed es)
    | some (.table origin es) =>
      (within change rest es).map fun es => put entries k (.table origin es)
    | some (.tables (last :: earlier)) =>
      (within change rest last).map fun es => put entries k (.tables (es :: earlier))
    | some _ => none

/-- Opens the table `k` by its header. -/
def openTable (k : String) (entries : Entries) : Option Entries :=
  match find? entries k with
  | none => some (put entries k (.table .header []))
  | some (.table .passed es) => some (put entries k (.table .header es))
  | some _ => none

/-- Opens another element of the array of tables `k`. -/
def openElement (k : String) (entries : Entries) : Option Entries :=
  match find? entries k with
  | none => some (put entries k (.tables [[]]))
  | some (.tables items) => some (put entries k (.tables ([] :: items)))
  | some _ => none

/-! ## §6. Values. -/

mutual

/-- A value inside `level` arrays and tables.  An array that is closed at once
does not count as a level. -/
def value (fuel level : Nat) (cs : List Char) : Option (Setting × List Char) :=
  match fuel with
  | 0 => none
  | fuel + 1 =>
    match cs with
    | '[' :: ']' :: rest => some (.list [], rest)
    | '[' :: rest =>
      if level + 1 < nestingLimit then
        (items fuel (level + 1) rest).map fun (vs, rest) => (.list vs, rest)
      else none
    | '\x7b' :: rest =>
      if level + 1 < nestingLimit then
        match skipSpaces rest with
        | '\x7d' :: rest => some (.other, rest)
        | rest => (members fuel (level + 1) [] rest).map fun rest => (.other, rest)
      else none
    | '"' :: _ => (text cs.length cs).map fun (t, rest) => (.text (String.ofList t), rest)
    | '\'' :: _ => (text cs.length cs).map fun (t, rest) => (.text (String.ofList t), rest)
    | _ => bare cs

/-- The rest of an array. -/
def items (fuel level : Nat) (cs : List Char) : Option (List Setting × List Char) :=
  match fuel with
  | 0 => none
  | fuel + 1 =>
    match skipLines cs.length cs with
    | ']' :: rest => some ([], rest)
    | cs =>
      match value fuel level cs with
      | none => none
      | some (v, rest) =>
        match skipLines rest.length rest with
        | ',' :: rest => (items fuel level rest).map fun (vs, rest) => (v :: vs, rest)
        | ']' :: rest => some ([v], rest)
        | _ => none

/-- The rest of a table on one line. -/
def members (fuel level : Nat) (entries : Entries) (cs : List Char) : Option (List Char) :=
  match fuel with
  | 0 => none
  | fuel + 1 =>
    match key cs with
    | some (path, '=' :: rest) =>
      match value fuel level (skipSpaces rest) with
      | none => none
      | some (v, rest) =>
        match assign entries v path with
        | none => none
        | some entries =>
          match skipSpaces rest with
          | ',' :: rest => members fuel level entries rest
          | '\x7d' :: rest => some rest
          | _ => none
    | _ => none

end

/-! ## §7. Documents. -/

/-- The part of a document that has been read. -/
structure Document where
  entries : Entries
  /-- The path of the table that keys belong to. -/
  current : List String

/-- Reads a header of a table. -/
def readTable (d : Document) (cs : List Char) : Option (Document × List Char) :=
  match key cs with
  | some (path, ']' :: rest) =>
    match (path.getLast?).bind fun k => within (openTable k) path.dropLast d.entries with
    | some entries => (endLine rest).map fun rest => (⟨entries, path⟩, rest)
    | none => none
  | _ => none

/-- Reads a header of an element of an array of tables. -/
def readElement (d : Document) (cs : List Char) : Option (Document × List Char) :=
  match key cs with
  | some (path, ']' :: ']' :: rest) =>
    match (path.getLast?).bind fun k => within (openElement k) path.dropLast d.entries with
    | some entries => (endLine rest).map fun rest => (⟨entries, path⟩, rest)
    | none => none
  | _ => none

/-- Reads a key with its value. -/
def readAssignment (d : Document) (cs : List Char) : Option (Document × List Char) :=
  match key cs with
  | some (path, '=' :: rest) =>
    match value (rest.length + 1) 0 (skipSpaces rest) with
    | none => none
    | some (v, rest) =>
      match within (fun es => assign es v path) d.current d.entries with
      | some entries => (endLine rest).map fun rest => ({ d with entries }, rest)
      | none => none
  | _ => none

/-- Reads the lines of a document. -/
def readLines (fuel : Nat) (d : Document) (cs : List Char) : Option Document :=
  match fuel with
  | 0 => none
  | fuel + 1 =>
    match skipLines cs.length cs with
    | [] => some d
    | '[' :: '[' :: rest =>
      match readElement d rest with
      | some (d, rest) => readLines fuel d rest
      | none => none
    | '[' :: rest =>
      match readTable d rest with
      | some (d, rest) => readLines fuel d rest
      | none => none
    | rest =>
      match readAssignment d rest with
      | some (d, rest) => readLines fuel d rest
      | none => none

/-- What a node is as a setting. -/
def Node.setting : Node → Setting
  | .value v => v
  | .table _ _ => .other
  | .tables items => .list (items.map fun _ => .other)

/-- The settings of a TOML document. -/
def source (document : String) : Option Source :=
  let cs := match document.toList with
    | c :: cs => if c.toNat = 0xFEFF then cs else c :: cs
    | [] => []
  (readLines (cs.length + 1) ⟨[], []⟩ cs).map fun d =>
    d.entries.map fun (k, node) => (k, node.setting)

end CqlToSql.Settings.Toml
