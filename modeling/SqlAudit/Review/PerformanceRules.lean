import SqlAudit.Review.LineRule

/-!
Line rules for queries that are likely to be slow.
-/

namespace SqlAudit
namespace PerformanceRules

open Pattern

def info (id name : String) (severity : Severity) : RuleInfo := ⟨id, name, severity, .performance⟩

def selectAll : LineRule where
  info := info "PERF001" "SELECT *" .medium
  pattern := all [edge, "SELECT", gap, opt (seq "DISTINCT" gap), sign '*']
  message := "SELECT * fetches every column and breaks when the table changes"
  suggestion := "List only the columns you need"

def leadingWildcard : LineRule where
  info := info "PERF002" "Leading wildcard" .medium
  pattern := all [edge, "LIKE", gap, opt "N", text "'%"]
  seesLiterals := true
  message := "LIKE pattern with a leading wildcard cannot use an index"
  suggestion := "Use full-text search or anchor the pattern at the start"

/-- Functions that hide a column from its index. -/
def wrappingFunctions : List String :=
  ["YEAR", "MONTH", "DAY", "DATE", "UPPER", "LOWER", "TRIM", "LTRIM", "RTRIM", "SUBSTRING",
   "SUBSTR", "LEFT", "RIGHT", "CAST", "CONVERT", "COALESCE", "ISNULL", "IFNULL", "NVL", "TO_CHAR",
   "DATE_FORMAT", "LENGTH"]

def functionOnColumn : LineRule where
  info := info "PERF003" "Function on column" .medium
  pattern := all [edge, oneWordOf ["WHERE", "AND", "OR", "ON"], gap, opt (seq "NOT" gap),
    oneWordOf wrappingFunctions, space, sign '(', space, char isWordStart,
    many (fun c => Text.isWordChar c || c == '.'), space, any [oneOf ",)", keyword "AS"]]
  message := "Function call on a column in a predicate prevents index usage"
  suggestion := "Rewrite the condition as a range, or add a functional index"
  confidence := hundredths 80

def largeNumber : Pattern := all [oneOf "123456789", exactly 3 digit, many Text.isDigit]

def largeOffset : LineRule where
  info := info "PERF004" "Large offset" .medium
  pattern := any [all [edge, "OFFSET", gap, largeNumber, edge],
    all [edge, "LIMIT", gap, largeNumber, space, sign ',']]
  message := "Large OFFSET still reads and discards every skipped row"
  suggestion := "Use keyset pagination (WHERE id > last_seen_id)"

def notInSubquery : LineRule where
  info := info "PERF005" "NOT IN with subquery" .medium
  pattern := all [edge, "NOT", gap, "IN", space, sign '(', space, "SELECT", edge]
  message := "NOT IN with a subquery is slow and returns no rows if the subquery yields NULL"
  suggestion := "Use NOT EXISTS or LEFT JOIN ... IS NULL instead"

def unionDistinct : LineRule where
  info := info "PERF006" "UNION without ALL" .low
  pattern := all [edge, "UNION", opt (seq gap "DISTINCT"), space,
    any [stop, seq "SELECT" edge, sign '(']]
  message := "UNION removes duplicates, which requires sorting"
  suggestion := "Use UNION ALL if duplicates are acceptable"

def randomOrder : LineRule where
  info := info "PERF007" "Random ordering" .medium
  pattern := all [edge, "ORDER", gap, "BY", gap, oneWordOf ["RAND", "RANDOM", "NEWID"], space,
    sign '(', space, sign ')']
  message := "ORDER BY a random value sorts the whole result set"
  suggestion := "Pick random keys in application code or sample with TABLESAMPLE"

def crossJoin : LineRule where
  info := info "PERF008" "Implicit cross join" .low
  pattern := all [edge, "FROM", gap, many1 (fun c => isNameChar c || c == '.'),
    opt (all [gap, opt (seq "AS" gap), many1 isNameChar]), space, sign ',', space, char isNameChar]
  unless? := some wherePattern
  message := "Comma-separated tables without a join condition form a cartesian product"
  suggestion := "Use explicit JOIN ... ON syntax"
  confidence := hundredths 60

def rules : List LineRule :=
  [selectAll, leadingWildcard, functionOnColumn, largeOffset, notInSubquery, unionDistinct,
   randomOrder, crossJoin]

end PerformanceRules
end SqlAudit
