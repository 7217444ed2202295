/-
  CqlToSql.Schema.Table
  ─────────────────────
  **What is declared about the tables**: the indexes on fields of their
  documents, and the foreign keys that lead to other tables.

  A foreign key belongs to the table whose documents hold it (the child) and
  points at the table whose ids it holds (the parent).  Both ends can carry
  an alias, under which a query addresses the table at that end.
-/
import CqlToSql.Fault
import CqlToSql.Text.Blank
import CqlToSql.Text.Identifier

namespace CqlToSql

open CqlToSql.Text

/-! ## §1. Declarations. -/

/-- The column that holds the primary key of a table. -/
def keyColumn : String := "id"

/-- The column that holds the documents of a table. -/
def documentColumn : String := "jsonb"

/-- A declared index on a field of the documents. -/
structure Index where
  /-- Dotted path of the field. -/
  fieldName : String
  /-- The index keeps letter case. -/
  caseSensitive : Bool := false
  /-- The index removes accents. -/
  removeAccents : Bool := true
  /-- The field holds text; other fields are never folded. -/
  stringType : Bool := true
  /-- The part of an array element that a search term is compared with. -/
  arraySubfield : Option String := none
  /-- Names, without `@`, of the modifiers that array elements understand. -/
  arrayModifiers : List String := []
  /-- Comma-separated dotted paths of the fields of a compound index. -/
  multiFieldNames : Option String := none
  /-- The SQL expression the index is made on. -/
  sqlExpression : Option String := none
  deriving Repr, DecidableEq, Inhabited

/-- The index keeps letter case. -/
def Index.isCaseSensitive (i : Index) : Bool := i.caseSensitive || !i.stringType

/-- The index removes accents. -/
def Index.removesAccents (i : Index) : Bool := i.removeAccents && i.stringType

/-- The index is made on an expression and not on a field alone. -/
def Index.hasExpression (i : Index) : Bool := i.multiFieldNames.isSome || i.sqlExpression.isSome

/-- A declared foreign key. -/
structure ForeignKey where
  /-- Dotted path of the field that holds the id. -/
  fieldName : String
  /-- Name of the parent table. -/
  targetTable : String
  /-- Alias of the parent table. -/
  targetTableAlias : Option String := none
  /-- Alias of the child table. -/
  tableAlias : Option String := none
  deriving Repr, DecidableEq, Inhabited

/-- A table. -/
structure Table where
  tableName : String
  fullTextIndex : List Index := []
  ginIndex : List Index := []
  index : List Index := []
  uniqueIndex : List Index := []
  likeIndex : List Index := []
  foreignKeys : List ForeignKey := []
  deriving Repr, DecidableEq, Inhabited

/-- The tables of a database. -/
structure Schema where
  tables : List Table := []
  deriving Repr, DecidableEq, Inhabited

/-! ## §2. Aliases. -/

/-- The name under which the parent table is addressed. -/
def ForeignKey.targetAlias (k : ForeignKey) : String := k.targetTableAlias.getD k.targetTable

/-- The name under which `table`, which holds the key, is addressed. -/
def ForeignKey.sourceAlias (k : ForeignKey) (table : Table) : String :=
  k.tableAlias.getD table.tableName

namespace Schema

/-- The first table of that name. -/
def table? (s : Schema) (name : String) : Option Table :=
  s.tables.find? fun t => t.tableName == name

/-- The foreign keys of all tables, each with its table, in order. -/
def keys (s : Schema) : List (Table × ForeignKey) :=
  s.tables.flatMap fun t => t.foreignKeys.map fun k => (t, k)

/-- The name of a table, or an alias of a foreign key. -/
def isTableOrAlias (s : Schema) (name : String) : Bool :=
  s.tables.any fun t =>
    t.tableName == name
      || t.foreignKeys.any fun k => k.targetAlias == name || k.sourceAlias t == name

/-- The table that a table name or an alias addresses. -/
def tableForAlias (s : Schema) (label : String) : Option String :=
  match s.table? label with
  | some t => some t.tableName
  | none =>
    s.keys.findSome? fun (t, k) =>
      if k.targetAlias = label then some k.targetTable
      else if k.sourceAlias t = label then some t.tableName
      else none

/-- The first foreign key of the table `child` that points at the table
`parent`. -/
def foreignKey? (s : Schema) (child parent : String) : Option ForeignKey :=
  (s.table? child).bind fun t => t.foreignKeys.find? fun k => k.targetTable == parent

/-! ## §3. Valid declarations. -/

/-- The first thing that is wrong with the foreign keys of a table. -/
def checkKeys (table : String) : List ForeignKey → Except SchemaFault Unit
  | [] => .ok ()
  | k :: ks =>
    if isAllBlank k.fieldName then .error (.keyWithoutField table)
    else if !isIdentifier k.targetTable then
      .error (.keyTarget table k.fieldName k.targetTable)
    else checkKeys table ks

/-- The first thing that is wrong with a list of tables. -/
def checkTables : List Table → Except SchemaFault Unit
  | [] => .ok ()
  | t :: ts =>
    if !isIdentifier t.tableName then .error (.identifier t.tableName)
    else
      match checkKeys t.tableName t.foreignKeys with
      | .error fault => .error fault
      | .ok () => checkTables ts

/-- The first thing that is wrong with the declarations. -/
def check (s : Schema) : Except SchemaFault Unit := checkTables s.tables

end Schema

end CqlToSql
