import SqlAudit.DataType.Registry
import SqlAudit.Review.Finding
import SqlAudit.Schema.Extraction

/-!
Checks of recovered tables: their keys, and the types of their columns.
-/

namespace SqlAudit
namespace SchemaCheck

open Pattern

def missingKey : RuleInfo := ⟨"SCH001", "Table without primary key", .medium, .semantic⟩

def keyColumnUnknown : RuleInfo := ⟨"SCH002", "Primary key names unknown column", .high, .semantic⟩

def referenceColumnUnknown : RuleInfo := ⟨"SCH003", "Foreign key column missing", .high, .semantic⟩

def referencedTableUnknown : RuleInfo :=
  ⟨"SCH004", "Foreign key to undeclared table", .low, .semantic⟩

def referencedColumnUnknown : RuleInfo :=
  ⟨"SCH005", "Foreign key to missing column", .medium, .semantic⟩

def unreadableColumn : RuleInfo := ⟨"SCH006", "Unparseable column definition", .medium, .syntactic⟩

def unknownType : RuleInfo := ⟨"SCH007", "Unknown data type", .low, .semantic⟩

def unsupportedType : RuleInfo := ⟨"SCH008", "Type unsupported by dialect", .medium, .semantic⟩

def floatMoney : RuleInfo := ⟨"SCH009", "Floating point money column", .medium, .semantic⟩

def duplicateColumn : RuleInfo := ⟨"SCH010", "Duplicate column", .high, .syntactic⟩

def missingIndex : RuleInfo :=
  ⟨"SCH011", "Missing index on predicate column", .medium, .performance⟩

def rules : List RuleInfo :=
  [missingKey, keyColumnUnknown, referenceColumnUnknown, referencedTableUnknown,
   referencedColumnUnknown, unreadableColumn, unknownType, unsupportedType, floatMoney,
   duplicateColumn, missingIndex]

/-- A finding about a column of a table, on the line of its definition. -/
def about (info : RuleInfo) (source : Text) (table : Table) (column message : String) : Finding :=
  { info.finding table.line (source.line table.line) message with
    target := some ⟨table.name, column⟩ }

/-! ## Keys -/

/-- A table needs a key, and the columns of the key must exist. -/
def checkPrimaryKey (source : Text) (table : Table) : List Finding :=
  match table.primaryKey with
  | none =>
    [{ missingKey.finding table.line (source.line table.line)
        s!"Table '{table.name}' has no primary key" with
      suggestion := some "Add a PRIMARY KEY so rows can be identified and replicated" }]
  | some columns =>
    (columns.filter fun column => (table.column? column).isNone).map fun column =>
      about keyColumnUnknown source table column
        s!"Primary key of '{table.name}' names unknown column '{column}'"

/-- The column of a reference must exist. -/
def checkReferenceColumn (source : Text) (table : Table) (key : ForeignKey) : List Finding :=
  if (table.column? key.column).isNone then
    [about referenceColumnUnknown source table key.column
      s!"Foreign key column '{key.column}' does not exist in '{table.name}'"]
  else []

/-- The table of a reference must be declared, and have the column that it names. -/
def checkReferencedTable (source : Text) (tables : List Table) (table : Table) (key : ForeignKey) :
    List Finding :=
  match findTable? tables key.table with
  | none =>
    [{ about referencedTableUnknown source table key.column
        (s!"Foreign key '{table.name}.{key.column}' references table '{key.table}' " ++
          "not declared in this input") with
      confidence := hundredths 50 }]
  | some target =>
    if !key.target.isEmpty && (target.column? key.target).isNone then
      [about referencedColumnUnknown source table key.column
        (s!"Foreign key '{table.name}.{key.column}' references missing column " ++
          s!"'{target.name}.{key.target}'")]
    else []

def checkKeys (source : Text) (tables : List Table) (table : Table) : List Finding :=
  checkPrimaryKey source table ++ table.foreignKeys.flatMap fun key =>
    checkReferenceColumn source table key ++ checkReferencedTable source tables table key

/-! ## Columns -/

/-- Words in the names of columns that hold money. -/
def moneyPattern : Pattern :=
  oneWordOf ["price", "amount", "cost", "total", "balance", "salary", "fee", "payment", "money",
    "revenue"]

/-- A name must not repeat one before it, whatever the case. -/
def checkDuplicate (source : Text) (table : Table) (earlier : List Column) (column : Column) :
    List Finding :=
  let key (c : Column) : Text := Text.lower c.name.toList
  if earlier.any fun other => key other == key column then
    [about duplicateColumn source table column.name
      s!"Column '{column.name}' is declared more than once in '{table.name}'"]
  else []

/-- A dialect must have the type of a column. -/
def checkSupport (source : Text) (registry : Registry) (dialect : Option Dialect) (table : Table)
    (column : Column) (d : Descriptor) : List Finding :=
  match dialect with
  | none => []
  | some target =>
    if d.supports target.name then []
    else
      [{ about unsupportedType source table column.name
          (s!"Type '{column.type}' of '{table.name}.{column.name}' is not available in " ++
            target.name) with
        suggestion := (registry.compatible d.name target.name).head?.map fun alternative =>
          s!"Use {alternative.name} instead" }]

/-- Money must not be held in floating point. -/
def checkMoney (source : Text) (table : Table) (column : Column) (d : Descriptor) : List Finding :=
  if d.format = some .float && moneyPattern.occursIn column.name.toList then
    [{ about floatMoney source table column.name
        (s!"Monetary column '{table.name}.{column.name}' uses floating type " ++ column.type) with
      suggestion := some "Use DECIMAL/NUMERIC with an explicit scale for money"
      confidence := hundredths 80 }]
  else []

/-- The type of a column must be known; then it is checked further. -/
def checkType (source : Text) (registry : Registry) (dialect : Option Dialect) (table : Table)
    (column : Column) : List Finding :=
  match registry.resolve? column.type with
  | none =>
    [about unknownType source table column.name
      s!"Type '{column.type}' of '{table.name}.{column.name}' is not known"]
  | some d => checkSupport source registry dialect table column d ++ checkMoney source table column d

/-- Checks columns in order, after those that are `earlier`. -/
def checkColumnsFrom (source : Text) (registry : Registry) (dialect : Option Dialect)
    (table : Table) : (earlier : List Column) → List Column → List Finding
  | _, [] => []
  | earlier, column :: rest =>
    checkDuplicate source table earlier column ++
    checkType source registry dialect table column ++
    checkColumnsFrom source registry dialect table (column :: earlier) rest

def checkColumns (source : Text) (registry : Registry) (dialect : Option Dialect) (table : Table) :
    List Finding :=
  checkColumnsFrom source registry dialect table [] table.columns

/-! ## Skipped fragments -/

/-- A fragment with a name but no known type is reported. -/
def checkSkipped (skipped : SkippedFragment) : Option Finding :=
  match skipped.issue with
  | .unknownType column _ =>
    some { unreadableColumn.finding skipped.line skipped.fragment.toList
        (s!"Column definition in '{skipped.table}' could not be parsed: " ++
          skipped.issue.message) with
      suggestion := some "Check the column type spelling"
      target := some ⟨skipped.table, column⟩ }
  | _ => none

end SchemaCheck
end SqlAudit
