import SqlAudit.Lexical.Comment
import SqlAudit.Review.PerformanceRules
import SqlAudit.Review.PredicateCheck
import SqlAudit.Review.SecurityRules
import SqlAudit.Review.SemanticRules
import SqlAudit.Review.Settings
import SqlAudit.Review.StatementCheck
import SqlAudit.Review.StrictParser

/-!
The analysis of a document: line rules, checks of statements and checks of recovered tables, whose
findings are then adjusted to the settings and put in order.
-/

namespace SqlAudit

def lineRules : List LineRule :=
  SecurityRules.rules ++ PerformanceRules.rules ++ SemanticRules.rules

/-- Every rule, those that look at lines first. -/
def knownRules : List RuleInfo :=
  lineRules.map LineRule.info ++ StatementCheck.rules ++ SchemaCheck.rules

structure Analyzer where
  registry : Registry
  settings : Settings := {}
  /-- Rules on lines besides the known ones. -/
  extraRules : List Rule := []
  /-- Why a dialect rejects a statement, if it does; asked in strict analyses. -/
  parser : Dialect → Text → Option String := StrictParser.verdict

namespace Analyzer

def dialect (a : Analyzer) : Dialect := a.settings.analysis.dialect

def rules (a : Analyzer) : List Rule :=
  (lineRules.map LineRule.toRule ++ a.extraRules).filter fun rule =>
    !a.settings.rules.isDisabled rule.info.id

def withoutComments (a : Analyzer) (source : Text) : Text :=
  -- In MySQL a number sign opens a comment anywhere on a line.
  source.blankComments (a.dialect = .mysql)

/-! ## Passes -/

/-- The lines that have something besides comments. -/
def sourceLines (document source : Text) : List SourceLine :=
  let pairs := document.lines.zip source.lines
  (pairs.zipIdx 1).filterMap fun (pair, number) =>
    if (Text.trim pair.1).isEmpty then none
    else some { number, raw := pair.1, code := Text.mask pair.1, source := pair.2 }

def checkLines (a : Analyzer) (document source : Text) : List Finding :=
  (sourceLines document source).flatMap fun line => a.rules.filterMap (·.check line)

/-- What is found without tables: on lines, then on statements. -/
def scan (a : Analyzer) (document source : Text) : List Finding :=
  a.checkLines document source ++
  StatementCheck.checkAll document source
    (if a.settings.analysis.strict then some (a.parser a.dialect) else none)

/-- What is found about recovered tables and the columns that statements filter on. -/
def checkSchema (a : Analyzer) (document source : Text) (e : Extraction) : List Finding :=
  e.tables.flatMap (fun table =>
    SchemaCheck.checkKeys source e.tables table ++
    SchemaCheck.checkColumns source a.registry a.dialect.target? table) ++
  e.skipped.filterMap SchemaCheck.checkSkipped ++
  PredicateCheck.checkAll document source e.tables

/-! ## Adjustment -/

/-- A finding with the severity that the settings give it and its source cut to a snippet. -/
def adjust (a : Analyzer) (f : Finding) : Finding :=
  { f with
    severity := (a.settings.rules.severity? f.rule).getD f.severity
    fragment := String.ofList (Text.snippet f.fragment.toList a.settings.analysis.snippetWidth) }

/-- The findings of enabled rules, adjusted and in order. -/
def finish (a : Analyzer) (findings : List Finding) : List Finding :=
  Finding.sort ((findings.filter fun f => !a.settings.rules.isDisabled f.rule).map a.adjust)

/-- The findings of a document on its lines and statements. -/
def analyze (a : Analyzer) (source : Text) : List Finding :=
  a.finish (a.scan (a.withoutComments source) source)

/-- The findings of a document on its lines, statements and tables. -/
def analyzeWithSchema (a : Analyzer) (source : Text) (e : Extraction) : List Finding :=
  let document := a.withoutComments source
  a.finish (a.scan document source ++ a.checkSchema document source e)

end Analyzer
end SqlAudit
