import SqlAudit.DataType.Registry
import SqlAudit.Schema.Table

/-!
Columns whose type a dialect does not have, with the types that can take its place.
-/

namespace SqlAudit

structure TypeMigration where
  table : String
  column : String
  type : String
  dialect : String
  /-- Types of the dialect that can hold the values, best first. -/
  candidates : List String
  /-- The steps to the first candidate. -/
  path : Option (List String)
  deriving DecidableEq, Repr

namespace TypeMigration

/-- The migration of a column; there is none if its type is not known or the dialect has it. -/
def ofColumn? (registry : Registry) (dialect : Dialect) (table : Table) (column : Column) :
    Option TypeMigration :=
  ((registry.resolve? column.type).filter fun d => !d.supports dialect.name).map fun d =>
    let candidates := (registry.compatible d.name dialect.name).map Descriptor.name
    { table := table.name, column := column.name, type := column.type, dialect := dialect.name,
      candidates, path := candidates.head?.bind (registry.path? d.name) }

def all (registry : Registry) (dialect : Option Dialect) (tables : List Table) :
    List TypeMigration :=
  dialect.toList.flatMap fun d => tables.flatMap fun table =>
    table.columns.filterMap (ofColumn? registry d table)

end TypeMigration
end SqlAudit
