import SqlAudit.Dialect
import SqlAudit.Review.Severity

/-!
What a review depends on besides the text: the dialect and limits of an analysis, and which rules
take part with which severity.
-/

namespace SqlAudit

structure AnalysisSettings where
  dialect : Dialect := .generic
  /-- Whether each statement is also handed to the parser. -/
  strict : Bool := false
  /-- Characters of source that a finding shows at most. -/
  snippetWidth : Nat := 120
  /-- Bytes that an input may have. -/
  maxInputBytes : Nat := 10 * 1024 * 1024
  deriving DecidableEq, Repr

structure RuleSettings where
  /-- Names of rules that do not report. -/
  disabled : List String := []
  /-- Rules with the severity that their findings get, as it is written. -/
  severities : List (String × String) := []
  deriving DecidableEq, Repr

namespace RuleSettings

def isDisabled (settings : RuleSettings) (rule : String) : Bool :=
  settings.disabled.any (sameName · rule)

/-- The severity that a rule gets; a word that is no severity changes nothing. -/
def severity? (settings : RuleSettings) (rule : String) : Option Severity :=
  settings.severities.findSome? fun entry =>
    if sameName entry.1 rule then Severity.ofName? entry.2 else none

end RuleSettings

structure Settings where
  analysis : AnalysisSettings := {}
  rules : RuleSettings := {}
  deriving DecidableEq, Repr

end SqlAudit
