import SqlAudit.Render.Document
import SqlAudit.Tool

/-!
Reports as one SARIF log with one run.  The parts of every record stand in alphabetical order.
-/

namespace SqlAudit
namespace Sarif

def schemaUri : String := "https://json.schemastore.org/sarif-2.1.0.json"

def level : Severity → String
  | .critical | .high => "error"
  | .medium => "warning"
  | .low => "note"

def rule (info : RuleInfo) : Document :=
  .record
    [("defaultConfiguration", .record [("level", .text (level info.severity))]),
     ("id", .text info.id), ("name", .text info.name),
     ("properties", .record [("category", .text info.concern.key)]),
     ("shortDescription", .record [("text", .text info.name)])]

/-- The message of a finding, with the suggestion after it. -/
def message (f : Finding) : String :=
  match f.suggestion with
  | some suggestion => s!"{f.message}. {suggestion}"
  | none => f.message

/-- Where a finding is: the source, and the line if it has one. -/
def location (source : String) (f : Finding) : Document :=
  .record [("physicalLocation", .record
    (("artifactLocation", .record [("uri", .text source)]) ::
      (f.line.map fun line =>
        ("region", Document.record [("startLine", Document.natural line)])).toList))]

/-- The result that a finding is. -/
def result (source : String) (f : Finding) : Document :=
  .record
    [("level", .text (level f.severity)), ("locations", .list [location source f]),
     ("message", .record [("text", .text (message f))]),
     ("properties", .record
       [("category", .text f.concern.key), ("confidence", Document.double f.confidence),
        ("severity", .text f.severity.key)]),
     ("ruleId", .text f.rule)]

def results (s : SourceReport) : List Document := s.report.findings.map (result s.source)

/-- The tool with all its rules. -/
def driver : Document :=
  .record
    [("informationUri", .text Tool.uri), ("name", .text Tool.name),
     ("rules", .list (knownRules.map rule)), ("version", .text Tool.version)]

def log (reports : List SourceReport) : Document :=
  .record
    [("$schema", .text schemaUri),
     ("runs", .list [.record
       [("results", .list (reports.flatMap results)), ("tool", .record [("driver", driver)])]]),
     ("version", .text "2.1.0")]

end Sarif
end SqlAudit
