import SqlAudit.Text.Basic

/-!
The dialects of SQL.
-/

namespace SqlAudit

inductive Dialect where
  | generic
  | mysql
  | postgresql
  | sqlite
  | sqlserver
  | oracle
  deriving DecidableEq, Repr

namespace Dialect

/-- The name under which types list the dialect. -/
def name : Dialect → String
  | .generic => "generic"
  | .mysql => "mysql"
  | .postgresql => "postgresql"
  | .sqlite => "sqlite"
  | .sqlserver => "sqlserver"
  | .oracle => "oracle"

/-- Every dialect with the names that people write for it. -/
def spellings : List (Dialect × List String) :=
  [(.generic, ["generic", "ansi", "sql"]),
   (.mysql, ["mysql", "mariadb"]),
   (.postgresql, ["postgresql", "postgres", "pg", "pgsql"]),
   (.sqlite, ["sqlite", "sqlite3"]),
   (.sqlserver, ["sqlserver", "mssql", "tsql", "sql_server"]),
   (.oracle, ["oracle", "plsql"])]

/-- The dialect of a name, in any case and with blanks around it. -/
def ofName? (written : String) : Option Dialect :=
  let key := (Text.trim written.toList).map Char.toLower
  (spellings.find? fun entry => entry.2.any (·.toList == key)).map (·.1)

def normalName? (written : String) : Option String := (ofName? written).map name

/-- The dialect whose types are checked: none for generic SQL. -/
def target? (d : Dialect) : Option Dialect := if d = .generic then none else some d

/-- The dialect whose types are checked under a written name: none also for a name of no dialect. -/
def targetOfName? (written : String) : Option Dialect := (ofName? written).bind target?

end Dialect
end SqlAudit
