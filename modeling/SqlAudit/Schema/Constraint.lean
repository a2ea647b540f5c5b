import SqlAudit.Schema.Table

/-!
Constraints of a table that add a key, references or an index.
-/

namespace SqlAudit

/-- What a constraint adds to its table. -/
inductive Constraint where
  | primaryKey (columns : List String)
  | foreignKeys (keys : List ForeignKey)
  | index (index : Index)
  deriving DecidableEq, Repr

namespace Constraint

open Pattern

def namedPattern : Pattern :=
  all [start, "CONSTRAINT", gap, capture .name name, gap, capture .body (many fun _ => true), stop]

/-- A list in parentheses, up to the first closing one. -/
def columnList (part : Part) : Pattern :=
  all [sign '(', capture part (many (· != ')')), sign ')']

def primaryKeyPattern : Pattern :=
  all [start, "PRIMARY", gap, "KEY", edge, many (· != '('), columnList .columns]

def foreignKeyPattern : Pattern :=
  all [start, "FOREIGN", gap, "KEY", space, opt (seq name space), columnList .columns, space,
    "REFERENCES", gap, capture .table spacedName, space, opt (columnList .remote)]

def uniquePattern : Pattern :=
  all [start, "UNIQUE", space, opt (seq (oneWordOf ["KEY", "INDEX"]) space),
    opt (seq (capture .index name) space), columnList .columns]

def indexPattern : Pattern :=
  all [start, opt (any [seq "FULLTEXT" gap, seq "SPATIAL" gap]), oneWordOf ["INDEX", "KEY"], space,
    opt (seq (capture .index name) space),
    opt (all ["USING", gap, many1 Text.isWordChar, space]), columnList .columns]

/-- The index of a matched constraint.  A name of its own counts before the name of the constraint;
without columns there is no index. -/
def indexOf? (m : Match) (name : Option String) (unique : Bool) : Option Constraint :=
  let columns := Text.columnNames (m.textOf .columns)
  if columns.isEmpty then none
  else some (.index ⟨(((m.textOf? .index).map Text.bareName).or name).getD "", columns, unique⟩)

/-- The references of a matched constraint: local and remote columns in pairs. -/
def referencesOf (m : Match) : List ForeignKey :=
  let remote := Text.columnNames (m.textOf .remote)
  (Text.columnNames (m.textOf .columns)).mapIdx fun i column =>
    ⟨column, Text.bareName (m.textOf .table), remote.getD i ""⟩

def readUnnamed? (fragment : Text) (name : Option String) : Option Constraint :=
  match primaryKeyPattern.find? fragment with
  | some m =>
    -- Without columns it is no key, and none of the patterns below matches it.
    let columns := Text.columnNames (m.textOf .columns)
    if columns.isEmpty then none else some (.primaryKey columns)
  | none =>
  match foreignKeyPattern.find? fragment with
  | some m => some (.foreignKeys (referencesOf m))
  | none =>
  match uniquePattern.find? fragment with
  | some m => indexOf? m name true
  | none =>
  match indexPattern.find? fragment with
  | some m => indexOf? m name false
  | none => none

/-- Reads a constraint below a number of names. -/
def readUnder? : (names : Nat) → Text → Option String → Option Constraint
  | 0, _, _ => none
  | names + 1, fragment, name =>
    match namedPattern.find? fragment with
    | some m =>
      readUnder? names (Text.trim (m.textOf .body)) ((m.textOf? .name).map Text.bareName)
    | none => readUnnamed? fragment name

/-- Reads a constraint.  Constraints that add nothing, such as checks, give nothing. -/
def read? (fragment : Text) : Option Constraint :=
  -- A name is shorter than its fragment, so there are fewer names than characters.
  readUnder? (fragment.length + 1) fragment none

end Constraint

namespace Table

/-- Adds a constraint; a later key replaces an earlier one. -/
def withConstraint (table : Table) : Constraint → Table
  | .primaryKey columns => { table with primaryKey := some columns }
  | .foreignKeys keys => { table with foreignKeys := table.foreignKeys ++ keys }
  | .index index => { table with indexes := table.indexes ++ [index] }

/-- Adds a column, with the key and the reference that its definition declares. -/
def withColumn (table : Table) (column : Column) : Table :=
  { table with
    columns := table.columns ++ [column]
    primaryKey := if column.isPrimaryKey then some [column.name] else table.primaryKey
    foreignKeys := table.foreignKeys ++ column.reference.toList.map fun reference =>
      ⟨column.name, reference.table, reference.column.getD ""⟩ }

end Table
end SqlAudit
