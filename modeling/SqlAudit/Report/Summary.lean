import SqlAudit.Review.Finding

/-!
Counts of findings, and the advice that they lead to.
-/

namespace SqlAudit

structure Summary where
  total : Nat
  critical : Nat
  high : Nat
  medium : Nat
  low : Nat
  syntactic : Nat
  performance : Nat
  security : Nat
  semantic : Nat
  deriving DecidableEq, Repr

namespace Finding

def countSeverity (findings : List Finding) (severity : Severity) : Nat :=
  findings.countP fun f => f.severity = severity

def countConcern (findings : List Finding) (concern : Concern) : Nat :=
  findings.countP fun f => f.concern = concern

end Finding

namespace Summary

def ofFindings (findings : List Finding) : Summary where
  total := findings.length
  critical := Finding.countSeverity findings .critical
  high := Finding.countSeverity findings .high
  medium := Finding.countSeverity findings .medium
  low := Finding.countSeverity findings .low
  syntactic := Finding.countConcern findings .syntactic
  performance := Finding.countConcern findings .performance
  security := Finding.countConcern findings .security
  semantic := Finding.countConcern findings .semantic

def ofConcern (s : Summary) : Concern → Nat
  | .syntactic => s.syntactic
  | .performance => s.performance
  | .security => s.security
  | .semantic => s.semantic

/-! ## Advice -/

/-- Advice that stands at the end of every report. -/
def standingAdvice : List String :=
  ["Paginate large result sets instead of fetching them at once",
   "Monitor slow query logs after deploying these statements",
   "Have schema and query changes peer reviewed before they reach production"]

/-- The order in which concerns are addressed. -/
def priority : List Concern := [.security, .syntactic, .semantic, .performance]

/-- Advice on `count` findings about a concern, when `indexes` indexes are suggested. -/
def adviceOn (count indexes : Nat) : Concern → String
  | .security =>
    s!"Review {count} security finding(s): guard destructive statements and parameterize user input"
  | .syntactic => s!"Fix {count} syntax issue(s) before running the script"
  | .semantic =>
    s!"Resolve {count} semantic issue(s) such as NULL comparisons and inconsistent keys"
  | .performance =>
    if indexes = 0 then s!"Address {count} performance issue(s) to keep queries index-friendly"
    else
      s!"Address {count} performance issue(s), starting with the {indexes} suggested index(es)"

/-- All advice, the most important first. -/
def advice (s : Summary) (indexes : Nat) : List String :=
  (if s.critical = 0 then []
    else [s!"Fix the {s.critical} critical issue(s) first: they can destroy data or expose it"]) ++
  ((priority.filter fun concern => s.ofConcern concern ≠ 0).map fun concern =>
    adviceOn (s.ofConcern concern) indexes concern) ++
  standingAdvice

end Summary
end SqlAudit
