/-
  CqlToSql.Json.Reader
  ────────────────────
  **Reading JSON text.**  The tokens are taken one by one; the arrays and
  objects that are open wait on a stack, the innermost first.  The depth of a
  text is therefore not limited.
-/
import CqlToSql.Json.Token
import CqlToSql.Json.Value

namespace CqlToSql.Json

/-- An array or object that is open, with what it holds so far, the last one
first. -/
inductive Frame where
  | array (items : List Value)
  /-- An object between members, or waiting for the value of `key`. -/
  | object (members : List (Option String × Value)) (key : Option (Option String))

/-- What may come next. -/
inductive Phase where
  | value
  /-- A value, or the end of an array that was just opened. -/
  | valueOrClose
  | key
  /-- A key, or the end of an object that was just opened. -/
  | keyOrClose
  | colon
  | commaOrClose
  /-- The text is complete. -/
  | finished (value : Value)

/-- The state of the reader. -/
structure State where
  stack : List Frame
  phase : Phase

/-- Nothing has been read. -/
def State.initial : State := ⟨[], .value⟩

/-- Puts a complete value where it belongs. -/
def State.complete (stack : List Frame) (v : Value) : Option State :=
  match stack with
  | [] => some ⟨[], .finished v⟩
  | .array items :: outer => some ⟨.array (v :: items) :: outer, .commaOrClose⟩
  | .object members (some key) :: outer =>
    some ⟨.object ((key, v) :: members) none :: outer, .commaOrClose⟩
  | .object _ none :: _ => none

/-- Begins a value with the token. -/
def State.begin (stack : List Frame) : Token → Option State
  | .null => State.complete stack .null
  | .bool b => State.complete stack (.bool b)
  | .number spelling => State.complete stack (.number spelling)
  | .string text => State.complete stack (.string text)
  | .openBracket => some ⟨.array [] :: stack, .valueOrClose⟩
  | .openBrace => some ⟨.object [] none :: stack, .keyOrClose⟩
  | _ => none

/-- Ends the innermost array or object with the token. -/
def State.close : List Frame → Token → Option State
  | .array items :: outer, .closeBracket => State.complete outer (.array items.reverse)
  | .object members none :: outer, .closeBrace => State.complete outer (.object members.reverse)
  | _, _ => none

/-- Takes the key of the next member. -/
def State.takeKey : List Frame → Token → Option State
  | .object members none :: outer, .string key =>
    some ⟨.object members (some key) :: outer, .colon⟩
  | _, _ => none

/-- Takes one token. -/
def State.take (s : State) (t : Token) : Option State :=
  match s.phase with
  | .value => State.begin s.stack t
  | .valueOrClose => if t = .closeBracket then State.close s.stack t else State.begin s.stack t
  | .key => State.takeKey s.stack t
  | .keyOrClose => if t = .closeBrace then State.close s.stack t else State.takeKey s.stack t
  | .colon => if t = .colon then some ⟨s.stack, .value⟩ else none
  | .commaOrClose =>
    if t = .comma then
      match s.stack with
      | .array _ :: _ => some ⟨s.stack, .value⟩
      | .object _ _ :: _ => some ⟨s.stack, .key⟩
      | [] => none
    else State.close s.stack t
  | .finished _ => none

/-- Takes a list of tokens. -/
def State.takeAll (s : State) : List Token → Option State
  | [] => some s
  | t :: ts =>
    match s.take t with
    | none => none
    | some s' => s'.takeAll ts

/-- The value of a JSON text. -/
def Value.parse (text : String) : Option Value :=
  match tokens text with
  | none => none
  | some ts =>
    match State.initial.takeAll ts with
    | some ⟨[], .finished v⟩ => some v
    | _ => none

end CqlToSql.Json
