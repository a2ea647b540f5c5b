import SqlAudit.Decimal.Binary
import SqlAudit.Report.Basic

/-!
Reports as trees, from which structured output is written.
-/

namespace SqlAudit

inductive Document where
  | null
  | truth (value : Bool)
  | number (written : List Char)
  | text (value : String)
  | list (items : List Document)
  /-- Named parts, in the order in which they are written. -/
  | record (fields : List (String × Document))

/-- The report on a document, and where the document came from. -/
structure SourceReport where
  source : String
  report : Report

namespace Document

def natural (n : Nat) : Document := .number (Decimal.digitsOf n)

/-- Single-precision numbers have up to thirteen digits before the point and up to five zeros after
it. -/
def singleLayout : DecimalLayout := ⟨13, 5⟩

/-- Double-precision numbers have up to sixteen digits before the point and up to four zeros after
it. -/
def doubleLayout : DecimalLayout := ⟨16, 4⟩

/-- A share between zero and one, in single precision. -/
def single (x : Float32) : Document := .number ((Binary.ofSingle x).shortest.render singleLayout)

/-- A share in single precision, written as the double-precision number that it is. -/
def double (x : Float32) : Document :=
  .number ((Binary.ofSingle x).widen.shortest.render doubleLayout)

def optional {α : Type} (part : α → Document) : Option α → Document
  | some a => part a
  | none => .null

def texts (values : List String) : Document := .list (values.map .text)

/-! ## Schemas -/

def ofColumn (c : Column) : Document :=
  .record
    [("name", .text c.name), ("declared_type", .text c.type), ("size", optional natural c.size),
     ("precision_scale", optional (fun p => .list [natural p.1, natural p.2]) c.precision),
     ("nullable", .truth c.nullable), ("is_primary_key", .truth c.isPrimaryKey),
     ("is_unique", .truth c.isUnique), ("is_auto_increment", .truth c.isAutoIncrement),
     ("default_value", optional .text c.default),
     ("references", optional (fun r => .list [.text r.table, optional .text r.column]) c.reference)]

def ofForeignKey (k : ForeignKey) : Document :=
  .record
    [("column", .text k.column), ("referenced_table", .text k.table),
     ("referenced_column", .text k.target)]

def ofIndex (i : Index) : Document :=
  .record [("name", .text i.name), ("columns", texts i.columns), ("unique", .truth i.unique)]

def ofTable (t : Table) : Document :=
  .record
    [("name", .text t.name), ("columns", .list (t.columns.map ofColumn)),
     ("primary_key", optional texts t.primaryKey),
     ("foreign_keys", .list (t.foreignKeys.map ofForeignKey)),
     ("indexes", .list (t.indexes.map ofIndex)), ("line", natural t.line)]

/-! ## Reports -/

def ofTarget (t : Target) : Document :=
  .record [("table", .text t.table), ("column", .text t.column)]

/-- A finding; the column that it is about is left out if there is none. -/
def ofFinding (f : Finding) : Document :=
  .record
    ([("rule_id", .text f.rule), ("category", .text f.concern.key),
      ("severity", .text f.severity.key), ("line", optional natural f.line),
      ("message", .text f.message), ("fragment", .text f.fragment),
      ("suggestion", optional .text f.suggestion), ("confidence", single f.confidence)] ++
    (f.target.map fun t => ("target", ofTarget t)).toList)

def ofIndexSuggestion (s : IndexSuggestion) : Document :=
  .record [("table", .text s.table), ("columns", texts s.columns), ("reason", .text s.reason)]

def ofMigration (m : TypeMigration) : Document :=
  .record
    [("table", .text m.table), ("column", .text m.column), ("declared_type", .text m.type),
     ("dialect", .text m.dialect), ("candidates", texts m.candidates),
     ("path", optional texts m.path)]

def ofSummary (s : Summary) : Document :=
  .record
    [("total", natural s.total), ("critical", natural s.critical), ("high", natural s.high),
     ("medium", natural s.medium), ("low", natural s.low), ("syntax", natural s.syntactic),
     ("performance", natural s.performance), ("security", natural s.security),
     ("semantic", natural s.semantic)]

def ofReport (r : Report) : Document :=
  .record
    [("tables", .list (r.tables.map ofTable)), ("findings", .list (r.findings.map ofFinding)),
     ("quality_score", natural r.score), ("recommendations", texts r.advice),
     ("index_suggestions", .list (r.indexes.map ofIndexSuggestion)),
     ("type_suggestions", .list (r.migrations.map ofMigration)), ("summary", ofSummary r.summary)]

def ofSourceReport (s : SourceReport) : Document :=
  .record [("source", .text s.source), ("report", ofReport s.report)]

/-- Reports are a list, also when there is one. -/
def ofReports (reports : List SourceReport) : Document := .list (reports.map ofSourceReport)

end Document
end SqlAudit
