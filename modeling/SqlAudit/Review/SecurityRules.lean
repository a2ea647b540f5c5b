import SqlAudit.Review.LineRule

/-!
Line rules for dangerous statements and signs of injection.
-/

namespace SqlAudit
namespace SecurityRules

open Pattern

def info (id name : String) (severity : Severity) : RuleInfo := ⟨id, name, severity, .security⟩

def deleteAll : LineRule where
  info := info "SEC001" "DELETE without WHERE" .critical
  pattern := all [edge, "DELETE", gap, "FROM", gap, many1 isTableChar, space, sign ';']
  unless? := some wherePattern
  message := "DELETE without WHERE removes every row in the table"
  suggestion := "Add a WHERE clause, or use TRUNCATE if emptying the table is intended"

def updateAll : LineRule where
  info := info "SEC002" "UPDATE without WHERE" .critical
  pattern := all [edge, "UPDATE", gap, many1 (!Text.isBlank ·), gap, "SET", edge, many (· != ';'),
    sign ';']
  unless? := some wherePattern
  message := "UPDATE without WHERE modifies every row in the table"
  suggestion := "Add a WHERE clause to limit the affected rows"

def drop : LineRule where
  info := info "SEC003" "DROP statement" .high
  pattern := all [edge, "DROP", gap, oneWordOf ["TABLE", "DATABASE", "SCHEMA"], edge]
  message := "DROP permanently removes the object and its data"
  suggestion := "Make sure a backup exists and the statement runs in a reviewed migration"

def truncate : LineRule where
  info := info "SEC004" "TRUNCATE statement" .high
  pattern := all [edge, "TRUNCATE", gap, opt (seq "TABLE" gap),
    char fun c => Text.isWordChar c || c == '\x60' || c == '\x22' || c == '[']
  message := "TRUNCATE removes all rows and usually cannot be rolled back"
  suggestion := "Use DELETE with WHERE for partial removal, and back up before truncating"

/-- A quoted text, captured without its quotes. -/
def quoted (part : Part) : Pattern :=
  all [sign '\x27', capture part (many (· != '\x27')), sign '\x27']

/-- A comparison of two literals after `OR`. -/
def literalComparison : Pattern :=
  all [edge, "OR", gap, any
    [all [capture .left digits, space, sign '=', space, capture .right digits, edge],
     all [quoted .left, space, sign '=', space, quoted .right]]]

def tautology : LineRule where
  info := info "SEC005" "Tautological condition" .critical
  pattern := literalComparison
  confirm := fun m => m.textOf .left == m.textOf .right
  seesLiterals := true
  message := "Always-true OR condition is a classic SQL injection pattern"
  suggestion := "Use parameterized queries and remove the always-true condition"
  confidence := hundredths 90

def grantAll : LineRule where
  info := info "SEC006" "GRANT ALL" .high
  pattern := all [edge, "GRANT", gap, "ALL", edge]
  message := "GRANT ALL gives far more privileges than most roles need"
  suggestion := "Grant only the privileges the role requires"

/-- A literal that is not empty. -/
def filledLiteral : Pattern := all [sign '\x27', many1 (· != '\x27'), sign '\x27']

def password : LineRule where
  info := info "SEC007" "Hardcoded password" .high
  pattern := any
    [all [edge, many Text.isWordChar, oneWordOf ["password", "passwd", "pwd"],
       many Text.isWordChar, space, any [text "=", text "<>", text "!="], space, filledLiteral],
     all [edge, "IDENTIFIED", gap, "BY", gap, filledLiteral]]
  seesLiterals := true
  message := "Password literal embedded in SQL"
  suggestion := "Pass credentials as bind parameters and store only password hashes"
  confidence := hundredths 80

def dynamicCall : Pattern :=
  any [all [edge, "EXEC", opt "UTE", space, sign '('], all [edge, "EXECUTE", gap, "IMMEDIATE", edge],
    keyword "sp_executesql"]

def concatenation : Pattern :=
  any [text "||", all [sign '+', space, sign '@'],
    all [sign '@', many1 Text.isWordChar, space, sign '+'], all [sign '+', space, sign '\x27'],
    all [sign '\x27', space, sign '+'], all [edge, "CONCAT", space, sign '(']]

def dynamicSql : LineRule where
  info := info "SEC008" "Dynamic SQL concatenation" .medium
  pattern := all [dynamicCall, many (· != '\n'), concatenation]
  message := "Dynamic SQL built by string concatenation is open to injection"
  suggestion := "Use bind variables or sp_executesql parameters instead of concatenation"
  confidence := hundredths 70

def rules : List LineRule :=
  [deleteAll, updateAll, drop, truncate, tautology, grantAll, password, dynamicSql]

end SecurityRules
end SqlAudit
