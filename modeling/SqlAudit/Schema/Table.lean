import SqlAudit.Schema.Column

/-!
Tables: columns, keys and indexes.  Names are looked up without regard to the case of unaccented
letters.
-/

namespace SqlAudit

/-- A reference of one column.  The target column is empty when the definition does not name it and
the key of the referenced table is not known. -/
structure ForeignKey where
  column : String
  table : String
  target : String
  deriving DecidableEq, Repr

/-- An index; the name is empty when it has none. -/
structure Index where
  name : String
  columns : List String
  unique : Bool
  deriving DecidableEq, Repr

structure Table where
  name : String
  columns : List Column := []
  /-- The columns of the key; the last declaration counts. -/
  primaryKey : Option (List String) := none
  foreignKeys : List ForeignKey := []
  indexes : List Index := []
  line : Nat
  deriving DecidableEq, Repr

namespace Table

def column? (table : Table) (name : String) : Option Column :=
  table.columns.find? fun column => sameName column.name name

def isKeyColumn (table : Table) (name : String) : Bool :=
  table.primaryKey.any (·.any fun column => sameName column name)

def leads (columns : List String) (name : String) : Bool :=
  columns.head?.any fun column => sameName column name

/-- Whether an index serves look-ups by a column alone: it starts the key or an index, or it is
declared a key or unique itself. -/
def hasLeadingIndex (table : Table) (name : String) : Bool :=
  table.primaryKey.any (leads · name) ||
  table.indexes.any (fun index => leads index.columns name) ||
  (table.column? name).any fun column => column.isUnique || column.isPrimaryKey

end Table

/-- The first table of a name. -/
def findTable? (tables : List Table) (name : String) : Option Table :=
  tables.find? fun table => sameName table.name name

end SqlAudit
