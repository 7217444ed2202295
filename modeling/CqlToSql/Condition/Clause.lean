/-
  CqlToSql.Condition.Clause
  ─────────────────────────
  **The condition of a search clause.**  The first rule that fits decides:

      1. the index of all records — every record matches
      2. an index qualified with another table — a join; the rest of the
         index is compiled in the scope of that table by these rules
      3. in permissive mode, a term qualified with another table — a
         comparison with the values of that table
      4. the server's choice — one of the chosen fields has to match
      5. any other index — a field of the searched table
-/
import CqlToSql.Condition.Field
import CqlToSql.Condition.Join

namespace CqlToSql.Condition

open CqlToSql.Text

/-- The other table that the term of a clause addresses, in permissive mode. -/
def termQualifier? (scope : Scope) (term : String) : Option (String × String) :=
  match scope.mode with
  | .strict => none
  | .permissive => scope.qualifier? term

/-- The condition of a search clause. -/
def clause (scope : Scope) (c : Clause) : Logged String :=
  if sameAsciiFold c.index allRecords then pure "true"
  else
    match _h : scope.qualifier? c.index with
    | some (qualifier, rest) => do
      let path ← Logged.ofExcept (scope.joinPath qualifier)
      match path.finalTable? with
      | none => Logged.fail (.query (.noJoin scope.table qualifier))
      | some table =>
        Logged.write .debug ("Join from " ++ scope.table ++ " to " ++ table ++ " via "
          ++ toString path.hops.length ++ " foreign keys")
        let inner ← clause (scope.forTable table) { c with index := rest }
        pure (path.nest inner)
    | none =>
      match termQualifier? scope c.term with
      | some (qualifier, path) => Logged.ofExcept (scope.valueJoin qualifier path c)
      | none =>
        if sameAsciiFold c.index serverChoice then anyField scope c
        else field scope c.index c
termination_by c.index.toList.length
decreasing_by exact Scope.qualifier?_length _h

end CqlToSql.Condition
