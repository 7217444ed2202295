/-
  CqlToSql.Schema.FieldIndexes
  ────────────────────────────
  The declared indexes of one field, at most one of each kind, and which of
  them serves which kind of search.
-/
import CqlToSql.Schema.Table

namespace CqlToSql

open CqlToSql.Text

/-- The indexes of one field. -/
structure FieldIndexes where
  /-- Index for patterns with a fixed beginning. -/
  like : Option Index := none
  /-- Index that admits every value once. -/
  unique : Option Index := none
  /-- Plain index. -/
  plain : Option Index := none
  /-- Index on groups of three characters, for patterns of any form. -/
  gin : Option Index := none
  /-- Index on words. -/
  fullText : Option Index := none
  deriving Repr, DecidableEq, Inhabited

/-- The first index on the field. -/
def indexOn (field : String) (indexes : List Index) : Option Index :=
  indexes.find? fun i => i.fieldName == field

/-- The indexes of a field of a table. -/
def Table.fieldIndexes (t : Table) (field : String) : FieldIndexes :=
  { like := indexOn field t.likeIndex
    unique := indexOn field t.uniqueIndex
    plain := indexOn field t.index
    gin := indexOn field t.ginIndex
    fullText := indexOn field t.fullTextIndex }

/-- The indexes of a field of the table of that name; none for an unknown
table. -/
def Schema.fieldIndexes (s : Schema) (table field : String) : FieldIndexes :=
  match s.table? table with
  | some t => t.fieldIndexes field
  | none => {}

namespace FieldIndexes

/-- The index that serves a pattern. -/
def forPattern (f : FieldIndexes) : Option Index :=
  f.gin <|> f.like <|> f.unique <|> f.plain

/-- The index that serves a comparison. -/
def forComparison (f : FieldIndexes) : Option Index :=
  f.plain <|> f.unique <|> f.like

/-- All indexes of the field, words first and plain last. -/
def all (f : FieldIndexes) : List Index :=
  [f.fullText, f.gin, f.like, f.unique, f.plain].filterMap id

/-- The first index that is made on an expression. -/
def withExpression (f : FieldIndexes) : Option Index := f.all.find? Index.hasExpression

/-- The modifier of array elements with that name, as it is declared, and the
part of an element that a search term is compared with. -/
def elementModifier (f : FieldIndexes) (name : String) : Option (String × String) :=
  f.all.findSome? fun i =>
    (i.arrayModifiers.find? (sameAsciiFold · name)).map fun declared =>
      (declared, i.arraySubfield.getD declared)

end FieldIndexes

end CqlToSql
