import SqlAudit.Review.LineRule

/-!
Line rules for statements that run but probably mean something else, and for misspelled keywords.
-/

namespace SqlAudit
namespace SemanticRules

open Pattern

def info (id name : String) (severity : Severity) : RuleInfo := ⟨id, name, severity, .semantic⟩

/-- What opens an assignment, after which an equals sign compares nothing. -/
def assignment : Pattern := all [edge, oneWordOf ["SET", "UPDATE"], edge]

def nullComparison : LineRule where
  info := info "SEM001" "Comparison with NULL" .high
  pattern := all [edge, oneWordOf ["WHERE", "AND", "OR", "ON", "HAVING", "WHEN"], edge,
    capture .between (few (· != ';')),
    char (fun c => Text.isWordChar c || c == ')' || c == ']' || c == '\x22' || c == '\x60'), space,
    any [text "=", text "!=", text "<>"], space, "NULL", edge]
  confirm := fun m => !assignment.occursIn (m.textOf .between)
  message := "Comparing with NULL using = or <> is never true"
  suggestion := "Use IS NULL or IS NOT NULL"

def insertWithoutColumns : LineRule where
  info := info "SEM002" "INSERT without column list" .medium
  pattern := all [edge, "INSERT", gap, opt (seq "INTO" gap), many1 isTableChar, gap, "VALUE",
    opt "S", edge]
  message := "INSERT without a column list depends on the table's column order"
  suggestion := "Name the target columns explicitly"

def positionalOrder : LineRule where
  info := info "SEM003" "Positional ORDER BY / GROUP BY" .low
  pattern := all [edge, oneWordOf ["ORDER", "GROUP"], gap, "BY", gap, digits, edge]
  message := "Positional references silently change meaning when the select list changes"
  suggestion := "Refer to columns by name or alias"

/-- Frequent misspellings of keywords. -/
def misspellings : List String :=
  ["SELCT", "SLECT", "SELCET", "SEELCT", "WHRE", "WEHRE", "WHER", "GRUOP", "GROPU", "ODRER",
   "INSRET", "UPDTAE", "UPADTE", "DELTE", "JION", "VAULES", "VALEUS", "LIMT", "HAVNIG"]

/-- `FORM` in the place of `FROM`: a table name and the end or the next clause follow it.  One blank
on either side of the selected columns is enough, since the columns take in all others. -/
def formForFrom : Pattern :=
  all [edge, "SELECT", char Text.isBlank, few1 (· != '\n'), char Text.isBlank, "FORM", gap,
    many1 isTableChar, space,
    any ([sign ';', stop] ++
      ["WHERE", "JOIN", "ORDER", "GROUP", "LIMIT"].map fun w => seq (word w) edge)]

def misspelling : LineRule where
  info := ⟨"SYN001", "Misspelled keyword", .high, .syntactic⟩
  pattern := any [all [edge, oneWordOf misspellings, edge], formForFrom]
  message := "Possible misspelled SQL keyword"
  suggestion := "Check the keyword spelling"
  confidence := hundredths 70

def rules : List LineRule := [nullComparison, insertWithoutColumns, positionalOrder, misspelling]

end SemanticRules
end SqlAudit
