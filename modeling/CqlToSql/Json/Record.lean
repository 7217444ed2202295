/-
  CqlToSql.Json.Record
  ────────────────────
  **Records in JSON.**  A record with named fields is written as an object,
  or as an array of its fields in their order.

      object — a field may be missing; a field given twice, or a key that is
               not text, spoils the record; other keys are skipped
      array  — fields may be missing at the end; too many items spoil it

  `fields` brings both forms to one list, with an optional value per name.
-/
import CqlToSql.Json.Value

namespace CqlToSql.Json

/-! ## §1. Fields. -/

/-- The value of a field among members; `none` if it is given twice. -/
def memberValue (name : String) : List (Option String × Value) → Option (Option Value)
  | [] => some none
  | (key, v) :: rest =>
    match memberValue name rest with
    | none => none
    | some found =>
      if key = some name then
        match found with
        | none => some (some v)
        | some _ => none
      else some found

/-- The optional values of the named fields, in the order of the names. -/
def memberValues (members : List (Option String × Value)) :
    List String → Option (List (Option Value))
  | [] => some []
  | name :: names =>
    match memberValue name members, memberValues members names with
    | some v, some vs => some (v :: vs)
    | _, _ => none

/-- The optional values of fields that are given by position. -/
def positionalValues : List Value → List String → Option (List (Option Value))
  | [], names => some (names.map fun _ => none)
  | _ :: _, [] => none
  | v :: vs, _ :: names => (positionalValues vs names).map (some v :: ·)

/-- The optional values of the named fields of a record. -/
def Value.fields (names : List String) : Value → Option (List (Option Value))
  | .object members =>
    if members.all (·.1.isSome) then memberValues members names else none
  | .array items => positionalValues items names
  | _ => none

/-! ## §2. What a field holds. -/

/-- The text of a string. -/
def Value.text? : Value → Option String
  | .string text => text
  | _ => none

/-- The truth value of a boolean. -/
def Value.bool? : Value → Option Bool
  | .bool b => some b
  | _ => none

/-- Every item of a list read with `read`. -/
def readAll {α : Type} (read : Value → Option α) : List Value → Option (List α)
  | [] => some []
  | v :: vs =>
    match read v, readAll read vs with
    | some a, some as => some (a :: as)
    | _, _ => none

/-- Every item of an array read with `read`. -/
def Value.list? {α : Type} (read : Value → Option α) : Value → Option (List α)
  | .array items => readAll read items
  | _ => none

/-- A text, or nothing for `null`. -/
def Value.optionalText? : Value → Option (Option String)
  | .null => some none
  | v => v.text?.map some

/-- A field that has to be there. -/
def required {α : Type} (read : Value → Option α) (field : Option Value) : Option α :=
  field.bind read

/-- A field that takes a default when it is missing. -/
def withDefault {α : Type} (default : α) (read : Value → Option α) :
    Option Value → Option α
  | none => some default
  | some v => read v

end CqlToSql.Json
