/-
  CqlToSql.Fault
  ──────────────
  **Everything that can go wrong**, as causes; the wording of a cause is in
  its `message`.  A fault belongs to one of six families, and three of them
  (`query`, `feature`, `parse`) are the fault of whoever wrote the query.
-/
import CqlToSql.Query.Parser

namespace CqlToSql

/-! ## §1. Configuration. -/

/-- What is wrong with the document columns. -/
inductive ColumnFault where
  | noColumn
  | emptyName
  /-- A search in array elements needs to know the table of the column. -/
  | noTable (column : String)
  deriving Repr, DecidableEq

/-- The wording of a column fault. -/
def ColumnFault.message : ColumnFault → String
  | .noColumn => "at least one document column is required"
  | .emptyName => "document column name must not be empty"
  | .noTable column =>
    "Array relation modifiers need a document column with table name, got " ++ column

/-- What is wrong with a server choice index; indexes are counted from one. -/
inductive ChoiceFault where
  | empty (number : Nat)
  | quote (number : Nat) (index : String)
  deriving Repr, DecidableEq

/-- The wording of a server choice fault. -/
def ChoiceFault.message : ChoiceFault → String
  | .empty number => "index number " ++ toString number ++ " is empty"
  | .quote number index =>
    "index number " ++ toString number ++ " contains a quote: " ++ index

/-! ## §2. Schema descriptions. -/

/-- Why a file could not be read as text. -/
inductive ReadFault where
  | missing
  | folder
  | insideFile
  | longName
  | zeroInName
  | notText
  deriving Repr, DecidableEq

/-- The wording of a read fault. -/
def ReadFault.message : ReadFault → String
  | .missing => "No such file or directory (os error 2)"
  | .folder => "Is a directory (os error 21)"
  | .insideFile => "Not a directory (os error 20)"
  | .longName => "File name too long (os error 36)"
  | .zeroInName => "file name contained an unexpected NUL byte"
  | .notText => "stream did not contain valid UTF-8"

/-- What is wrong with a schema description. -/
inductive SchemaFault where
  | unreadable (path : String) (cause : ReadFault)
  /-- The text is not JSON, or not JSON of the right form. -/
  | malformed
  | identifier (name : String)
  | keyWithoutField (table : String)
  | keyTarget (table field target : String)
  deriving Repr, DecidableEq

/-- The rule for names that can stand in SQL without quotes. -/
def identifierRule : String := "^[a-zA-Z_][a-zA-Z0-9_]\x7b0,48\x7d$"

/-- The wording of a schema fault. -/
def SchemaFault.message : SchemaFault → String
  | .unreadable path cause => "Could not read schema file '" ++ path ++ "': " ++ cause.message
  | .malformed => "Invalid schema description"
  | .identifier name =>
    "SQL identifier must match regexp " ++ identifierRule ++ " but it is " ++ name
  | .keyWithoutField table => "Malformed foreign key in table " ++ table ++ ": missing field name"
  | .keyTarget table field target =>
    "Malformed foreign key in table " ++ table ++ ": invalid target table '" ++ target
      ++ "' for field " ++ field

/-! ## §3. Queries. -/

/-- Why a query makes no sense. -/
inductive QueryFault where
  | noServerChoice
  | trailingBackslash (term : String)
  | maskOrAnchor (c : Char) (term : String)
  | singleMask
  | innerTruncation
  | anchor
  | quotedIndex (index : String)
  | relationModifier (name : String)
  | keyModifier (name : String)
  | keyComparison (base term : String)
  | keyRelation (base : String)
  | keyTruncation (term : String)
  | ambiguousJoin (table qualifier : String)
  | noJoin (table qualifier : String)
  | joinField (field qualifier : String)
  | unknownAlias (qualifier : String)
  | joinRelation (base qualifier : String)
  deriving Repr, DecidableEq

/-- The wording of a query fault. -/
def QueryFault.message : QueryFault → String
  | .noServerChoice => "cql.serverChoice requested, but no server choice indexes defined"
  | .trailingBackslash term => "CQL: Trailing backslash in term: " ++ term
  | .maskOrAnchor c term =>
    "CQL: Unsupported masking or anchor character " ++ String.singleton c ++ " in term: " ++ term
  | .singleMask => "CQL: single character mask unsupported (?)"
  | .innerTruncation => "CQL: only right truncation supported"
  | .anchor => "CQL: anchoring unsupported (^)"
  | .quotedIndex index => "CQL: Index name must not contain a single quote: " ++ index
  | .relationModifier name => "CQL: Unsupported relation modifier " ++ name
  | .keyModifier name => "CQL: Unsupported modifier " ++ name
  | .keyComparison base term => "CQL: Invalid UUID after id comparator " ++ base ++ ": " ++ term
  | .keyRelation base =>
    "CQL: Unsupported operator '" ++ base
      ++ "' id only supports '=', '==', and '<>' (possibly with right truncation)"
  | .keyTruncation term => "CQL: only right truncation supported for id: " ++ term
  | .ambiguousJoin table qualifier =>
    "Ambiguous foreign key between " ++ table ++ " and " ++ qualifier
      ++ ", both are parent and child of each other"
  | .noJoin table qualifier => "No foreign key path between " ++ table ++ " and " ++ qualifier
  | .joinField field qualifier => "CQL: Invalid field name " ++ field ++ " of table " ++ qualifier
  | .unknownAlias qualifier => "Unknown table alias " ++ qualifier
  | .joinRelation base qualifier =>
    "CQL: Relation " ++ base ++ " can't compare with values of table " ++ qualifier

/-- What a query asks for that is not supported. -/
inductive FeatureFault where
  | modifier (name : String)
  | relation (base : String) (clause : Clause)
  deriving Repr, DecidableEq

/-- The wording of a feature fault. -/
def FeatureFault.message : FeatureFault → String
  | .modifier name => "CQL: Unsupported modifier " ++ name
  | .relation base clause => "Relation " ++ base ++ " not implemented yet: " ++ clause.render

/-! ## §4. All faults. -/

/-- A fault. -/
inductive Fault where
  | column (cause : ColumnFault)
  | choice (cause : ChoiceFault)
  | query (cause : QueryFault)
  | feature (cause : FeatureFault)
  | parse (cause : ParseFault)
  | schema (cause : SchemaFault)
  deriving Repr, DecidableEq

/-- The wording of a fault. -/
def Fault.message : Fault → String
  | .column cause => "Invalid document column: " ++ cause.message
  | .choice cause => "Invalid server choice index: " ++ cause.message
  | .query cause => "Invalid query: " ++ cause.message
  | .feature cause => "Unsupported CQL feature: " ++ cause.message
  | .parse cause => cause.message
  | .schema cause => cause.message

/-- The query is to blame, not the configuration. -/
def Fault.isQueryFault : Fault → Bool
  | .query _ => true
  | .feature _ => true
  | .parse _ => true
  | _ => false

end CqlToSql
