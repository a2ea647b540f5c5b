import SqlAudit.Text.Basic
import SqlAudit.Text.LowerCase

/-!
How serious a finding is, and what it is about.
-/

namespace SqlAudit

inductive Severity where
  | low
  | medium
  | high
  | critical
  deriving DecidableEq, Repr

namespace Severity

/-- Points that a finding takes from the score. -/
def penalty : Severity → Nat
  | .low => 3
  | .medium => 8
  | .high => 15
  | .critical => 25

/-- The place in the order of severities, from low to critical. -/
def rank : Severity → Nat
  | .low => 0
  | .medium => 1
  | .high => 2
  | .critical => 3

/-- The name in structured output. -/
def key : Severity → String
  | .low => "low"
  | .medium => "medium"
  | .high => "high"
  | .critical => "critical"

/-- The name that is shown. -/
def label : Severity → String
  | .low => "LOW"
  | .medium => "MEDIUM"
  | .high => "HIGH"
  | .critical => "CRITICAL"

/-- Every severity with the names that a configuration may use for it. -/
def spellings : List (Severity × List String) :=
  [(.low, ["low", "info"]), (.medium, ["medium", "warning", "warn"]), (.high, ["high", "error"]),
   (.critical, ["critical"])]

/-- The severity of a name, in any case and with blanks around it. -/
def ofName? (written : String) : Option Severity :=
  let key := Text.lower (Text.trim written.toList)
  (spellings.find? fun entry => entry.2.any (·.toList == key)).map (·.1)

def worse (a b : Severity) : Severity := if a.rank ≤ b.rank then b else a

def worst? : List Severity → Option Severity
  | [] => none
  | s :: rest => some (rest.foldl worse s)

end Severity

/-- What a finding is about. -/
inductive Concern where
  /-- Malformed or suspicious structure. -/
  | syntactic
  | performance
  | security
  /-- Constructs that run but probably mean something else. -/
  | semantic
  deriving DecidableEq, Repr

namespace Concern

def key : Concern → String
  | .syntactic => "syntax"
  | .performance => "performance"
  | .security => "security"
  | .semantic => "semantic"

/-- The name that is shown. -/
def label : Concern → String
  | .syntactic => "Syntax"
  | .performance => "Performance"
  | .security => "Security"
  | .semantic => "Semantic"

end Concern
end SqlAudit
