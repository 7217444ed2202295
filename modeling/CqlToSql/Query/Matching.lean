/-
  CqlToSql.Query.Matching
  ───────────────────────
  **How a clause is matched and a key is sorted**, as its modifiers say.  The
  modifiers are read in order and a later one overrides an earlier one of the
  same kind; names are compared without regard to letter case.

      ignoreCase  respectCase  ignoreAccents  respectAccents
      string  number  sort.ascending  sort.descending  masked

  A name that starts with `@` addresses the elements of an array; such
  modifiers are collected and not interpreted here.
-/
import CqlToSql.Fault

namespace CqlToSql

open CqlToSql.Text

/-- Whether a difference counts. -/
inductive Regard where
  | ignore
  | respect
  deriving Repr, DecidableEq, Inhabited

/-- How a search term is compared. -/
inductive Format where
  | string
  | number
  deriving Repr, DecidableEq, Inhabited

/-- The order of a sort key. -/
inductive Direction where
  | ascending
  | descending
  deriving Repr, DecidableEq, Inhabited

/-- How a clause is matched and a key is sorted. -/
structure Matching where
  letterCase : Regard
  accents : Regard
  format : Format
  direction : Direction
  /-- Modifiers that address the elements of an array. -/
  elementModifiers : List Modifier
  deriving Repr, DecidableEq, Inhabited

namespace Matching

/-- What holds without modifiers. -/
def initial : Matching :=
  { letterCase := .ignore, accents := .ignore, format := .string, direction := .ascending,
    elementModifiers := [] }

/-- The name addresses the elements of an array. -/
def isElementName (name : String) : Bool := name.toList.head? == some '@'

/-- The matching with one more modifier read. -/
def add (m : Matching) (modifier : Modifier) : Except Fault Matching :=
  if isElementName modifier.name then
    .ok { m with elementModifiers := m.elementModifiers ++ [modifier] }
  else
    let name := lowerCase modifier.name
    if name = "ignorecase" then .ok { m with letterCase := .ignore }
    else if name = "respectcase" then .ok { m with letterCase := .respect }
    else if name = "ignoreaccents" then .ok { m with accents := .ignore }
    else if name = "respectaccents" then .ok { m with accents := .respect }
    else if name = "string" then .ok { m with format := .string }
    else if name = "number" then .ok { m with format := .number }
    else if name = "sort.ascending" then .ok { m with direction := .ascending }
    else if name = "sort.descending" then .ok { m with direction := .descending }
    else if name = "masked" then .ok m
    else .error (.feature (.modifier modifier.name))

/-- The matching with a list of modifiers read. -/
def addAll (m : Matching) : List Modifier → Except Fault Matching
  | [] => .ok m
  | modifier :: rest =>
    match m.add modifier with
    | .ok m' => m'.addAll rest
    | .error fault => .error fault

/-- How the modifiers ask to match. -/
def ofModifiers (modifiers : List Modifier) : Except Fault Matching :=
  initial.addAll modifiers

/-- Neither letter case nor accents count. -/
def ignoresCaseAndAccents (m : Matching) : Bool :=
  decide (m.letterCase = .ignore ∧ m.accents = .ignore)

end Matching

end CqlToSql
