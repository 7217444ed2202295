/-
  CqlToSql.Condition.Join
  ───────────────────────
  **Joins along foreign keys.**  An index `other.rest`, where `other` is the
  name or an alias of another table, searches `rest` in that table and joins
  it along the only chain of foreign keys between the two, in whichever
  direction it runs.  Two chains in opposite directions are ambiguous.

  In permissive mode a search term `other.field` compares with the values of
  a field of the other table.
-/
import CqlToSql.Condition.Scope
import CqlToSql.Schema.Chain

namespace CqlToSql

open CqlToSql.Text

/-! ## §1. Names of other tables. -/

/-- The table alias in front of a name, and the rest of the name, if the alias
addresses a table other than the searched one. -/
def Scope.qualifier? (s : Scope) (name : String) : Option (String × String) :=
  match cutFirst '.' name with
  | none => none
  | some (qualifier, rest) =>
    if qualifier = s.table ∨ rest = "" then none
    else if (s.schema.table? s.table).isNone then none
    else if s.schema.isTableOrAlias qualifier then some (qualifier, rest)
    else none

theorem cutFirstChars_length {sep : Char} {cs before rest : List Char}
    (h : cutFirstChars sep cs = some (before, rest)) : rest.length < cs.length := by
  induction cs generalizing before with
  | nil => simp [cutFirstChars] at h
  | cons c cs ih =>
    unfold cutFirstChars at h
    split at h
    · simp only [Option.some.injEq, Prod.mk.injEq] at h
      simp [← h.2]
    · obtain ⟨⟨b, r⟩, hr, he⟩ := Option.map_eq_some_iff.1 h
      simp only [Prod.mk.injEq] at he
      obtain ⟨-, rfl⟩ := he
      have := ih hr
      simp only [List.length_cons]
      omega

/-- What follows a qualifier is shorter than the whole name. -/
theorem Scope.qualifier?_length {s : Scope} {name qualifier rest : String}
    (h : s.qualifier? name = some (qualifier, rest)) : rest.toList.length < name.toList.length := by
  unfold Scope.qualifier? at h
  split at h
  · simp at h
  · rename_i a r hc
    unfold cutFirst at hc
    obtain ⟨⟨b, r'⟩, hr, he⟩ := Option.map_eq_some_iff.1 hc
    simp only [Prod.mk.injEq] at he
    have hlen := cutFirstChars_length hr
    split at h
    · simp at h
    · split at h
      · simp at h
      · split at h
        · simp only [Option.some.injEq, Prod.mk.injEq] at h
          rw [← h.2, ← he.2]
          simpa using hlen
        · simp at h

/-! ## §2. The chain of a join. -/

/-- A chain of foreign keys, seen from the searched table. -/
inductive JoinPath where
  /-- The searched table holds the first key. -/
  | toParent (hops : List Hop)
  /-- The first key points at the searched table. -/
  | toChild (hops : List Hop)
  deriving Repr, DecidableEq

namespace JoinPath

/-- The hops of the chain, from the searched table on. -/
def hops : JoinPath → List Hop
  | .toParent hops => hops
  | .toChild hops => hops

/-- The table at the far end. -/
def finalTable? : JoinPath → Option String
  | .toParent hops => hops.getLast?.map Hop.target
  | .toChild hops => hops.getLast?.map Hop.table

end JoinPath

/-- The field that holds the foreign key of a hop. -/
def Hop.keyText (h : Hop) : String := textPath (h.table ++ "." ++ documentColumn) h.field

/-- The records of the child whose key points at a record of the parent that
fulfils `inner`. -/
def Hop.intoParent (h : Hop) (inner : String) : String :=
  "(" ++ h.keyText ++ ")::UUID IN  ( SELECT " ++ keyColumn ++ " from " ++ h.target ++ " WHERE "
    ++ inner ++ ")"

/-- The records of the parent that the key of a child record that fulfils
`inner` points at. -/
def Hop.intoChild (h : Hop) (inner : String) : String :=
  h.target ++ "." ++ keyColumn ++ " IN  ( SELECT (" ++ h.keyText ++ ")::UUID from " ++ h.table
    ++ " WHERE " ++ inner ++ ")"

/-- The condition on the searched table, given the one on the final table. -/
def JoinPath.nest (p : JoinPath) (inner : String) : String :=
  match p with
  | .toParent hops => hops.foldr Hop.intoParent inner
  | .toChild hops => hops.foldr Hop.intoChild inner

namespace Scope

/-- The only chain between the searched table and the table with that alias. -/
def joinPath (s : Scope) (qualifier : String) : Except Fault JoinPath :=
  match s.schema.pathToAlias s.table qualifier, s.schema.pathFromAlias qualifier s.table with
  | some hops, none => .ok (.toParent hops)
  | none, some hops => .ok (.toChild hops)
  | some _, some _ => .error (.query (.ambiguousJoin s.table qualifier))
  | none, none => .error (.query (.noJoin s.table qualifier))

/-! ## §3. Comparing with values of another table. -/

/-- Every part of a dotted path is an identifier. -/
def isPlainPath (path : String) : Bool := (splitAt '.' path).all isIdentifier

/-- The comparison of a field of the searched table with the values of the
field `path` of the table with that alias. -/
def valueJoin (s : Scope) (qualifier path : String) (clause : Clause) : Except Fault String :=
  if !isPlainPath path then .error (.query (.joinField path qualifier))
  else
    match s.joinPath qualifier with
    | .error fault => .error fault
    | .ok _ =>
      match s.schema.tableForAlias qualifier with
      | none => .error (.query (.unknownAlias qualifier))
      | some table =>
        match s.field clause.index with
        | .error fault => .error fault
        | .ok field =>
          let other := textPath (table ++ "." ++ documentColumn) path
          if clause.relation.base = "=" ∨ clause.relation.base = "==" then
            .ok (field.text ++ " IN  ( SELECT " ++ other ++ " from " ++ table ++ ")")
          else if clause.relation.base = "<>" then
            .ok (field.text ++ " NOT IN  ( SELECT " ++ other ++ " from " ++ table ++ " WHERE "
              ++ other ++ " IS NOT NULL)")
          else .error (.query (.joinRelation clause.relation.base qualifier))

end Scope

end CqlToSql
