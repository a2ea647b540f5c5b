import SqlAudit.DataType.Descriptor
import SqlAudit.Power
import SqlAudit.Review.Severity

/-!
Findings, their order and the score that they leave.
-/

namespace SqlAudit

/-- What a rule is called, and what its findings are unless a configuration says otherwise. -/
structure RuleInfo where
  id : String
  name : String
  severity : Severity
  concern : Concern
  deriving DecidableEq, Repr

/-- The column of a table that a finding is about. -/
structure Target where
  table : String
  column : String
  deriving DecidableEq, Repr

structure Finding where
  rule : String
  concern : Concern
  severity : Severity
  line : Option Nat
  message : String
  /-- The source that the finding points at. -/
  fragment : String := ""
  suggestion : Option String := none
  /-- How sure the rule is, from zero to one. -/
  confidence : Float32 := 1
  target : Option Target := none

namespace RuleInfo

def finding (info : RuleInfo) (line : Nat) (fragment : Text) (message : String) : Finding :=
  { rule := info.id, concern := info.concern, severity := info.severity, line := some line,
    message, fragment := String.ofList fragment }

end RuleInfo

namespace Finding

/-! ## Order -/

/-- The line by which findings are ordered: those without one come after every line. -/
def place (f : Finding) : Nat := f.line.getD (twoTo 64 - 1)

/-- Whether a finding may stand before another one: by line, then the more severe first, then by the
name of the rule. -/
def before (a b : Finding) : Bool :=
  if a.place ≠ b.place then a.place < b.place
  else if a.severity ≠ b.severity then b.severity.rank < a.severity.rank
  else !(b.rule < a.rule)

def sort (findings : List Finding) : List Finding :=
  -- Findings that agree in line, severity and rule keep their order.
  findings.mergeSort before

/-! ## Score -/

def fullScore : Nat := 100

def totalPenalty : List Finding → Nat
  | [] => 0
  | f :: rest => f.severity.penalty + totalPenalty rest

/-- What the penalties leave of the full score. -/
def score (findings : List Finding) : Nat := fullScore - totalPenalty findings

end Finding

namespace Text

/-- A text trimmed and cut to a number of characters, with three dots for what is cut off. -/
def snippet (t : Text) (width : Nat) : Text :=
  let body := t.trim
  if List.length body ≤ width then body else body.take (width - 3) ++ ['.', '.', '.']

end Text
end SqlAudit
