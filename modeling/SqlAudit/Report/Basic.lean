import SqlAudit.Report.IndexSuggestion
import SqlAudit.Report.Summary
import SqlAudit.Report.TypeMigration
import SqlAudit.Review.Analysis

/-!
The report on a document: its tables and findings, and what follows from them.
-/

namespace SqlAudit

structure Report where
  tables : List Table
  /-- In the order of `Finding.before`. -/
  findings : List Finding
  score : Nat
  /-- Advice, the most important first. -/
  advice : List String
  indexes : List IndexSuggestion
  migrations : List TypeMigration
  summary : Summary

namespace Report

/-- The report on tables and findings.  A dialect asks for type migrations. -/
def ofFindings (registry : Registry) (dialect : Option Dialect) (tables : List Table)
    (findings : List Finding) : Report :=
  let sorted := Finding.sort findings
  let indexes := IndexSuggestion.all tables sorted
  let summary := Summary.ofFindings sorted
  { tables, findings := sorted, score := Finding.score sorted,
    advice := summary.advice indexes.length, indexes,
    migrations := TypeMigration.all registry dialect tables, summary }

def worstSeverity? (r : Report) : Option Severity := Severity.worst? (r.findings.map Finding.severity)

/-! ## Exit status -/

/-- The exit status that the worst severity of all findings asks for. -/
def statusOf : Option Severity → Nat
  | some .critical => 2
  | some .high => 2
  | some .medium => 1
  | _ => 0

/-- The exit status of several reports: 2 if a score is below the least one, else the one that the
worst finding of all reports asks for. -/
def exitStatusAll (least : Nat) (reports : List Report) : Nat :=
  if reports.any (·.score < least) then 2
  else statusOf (Severity.worst? (reports.filterMap worstSeverity?))

end Report

namespace Analyzer

/-- The dialect that reports have migrations for.  A report is given the name of the dialect only. -/
def reportTarget? (a : Analyzer) : Option Dialect :=
  (a.dialect.target?.map Dialect.name).bind Dialect.targetOfName?

def review (a : Analyzer) (source : Text) : Report :=
  let e := Extraction.ofText source
  Report.ofFindings a.registry a.reportTarget? e.tables (a.analyzeWithSchema source e)

end Analyzer
end SqlAudit
