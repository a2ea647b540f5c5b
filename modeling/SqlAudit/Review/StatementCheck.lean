import SqlAudit.Lexical.Balance
import SqlAudit.Lexical.Mask
import SqlAudit.Lexical.Statement
import SqlAudit.Review.LineRule

/-!
Checks of the structure of each statement.
-/

namespace SqlAudit
namespace StatementCheck

open Pattern

def info (id name : String) (severity : Severity) : RuleInfo := ⟨id, name, severity, .syntactic⟩

def unbalanced : RuleInfo := info "SYN101" "Unbalanced parentheses" .high

def unclosedQuote : RuleInfo := info "SYN102" "Unclosed quote" .high

def trailingComma : RuleInfo := info "SYN103" "Trailing comma" .medium

def doubledComma : RuleInfo := info "SYN104" "Doubled comma" .medium

def rejected : RuleInfo := info "SYN105" "Rejected by parser" .low

def rules : List RuleInfo := [unbalanced, unclosedQuote, trailingComma, doubledComma, rejected]

def trailingCommaPattern : Pattern := all [sign ',', space, sign ')']

def doubledCommaPattern : Pattern := all [sign ',', space, sign ',']

def balanceMessage (b : Balance) : String :=
  if b.lowest < 0 then "Statement closes a parenthesis that was never opened"
  else s!"Statement leaves {b.depth} parenthesis(es) open"

/-- The finding for a quote or parentheses that do not close. -/
def balanceFinding? (b : Balance) (line : Nat) (fragment : Text) : Option Finding :=
  match b.openQuote with
  | some quote =>
    some { unclosedQuote.finding line fragment
        s!"Statement leaves a {String.singleton quote.char} quote open" with
      suggestion := some "Close the quote or escape the embedded quote character" }
  | none =>
    if b.depth ≠ 0 ∨ b.lowest < 0 then
      some { unbalanced.finding line fragment (balanceMessage b) with
        suggestion := some "Balance the parentheses" }
    else none

/-- A finding for each place of a statement where a pattern matches outside literals. -/
def placeFindings (document source : Text) (statement : Statement) (pattern : Pattern)
    (rule : RuleInfo) (message suggestion : String) : List Finding :=
  (pattern.findAll statement.text.mask).map fun m =>
    let line := document.lineAt (statement.offset + m.start.offset)
    { rule.finding line (source.line line) message with suggestion := some suggestion }

/-- The findings of one statement.  The parser says why it rejects a statement. -/
def check (document source : Text) (parser : Option (Text → Option String))
    (statement : Statement) : List Finding :=
  let line := document.lineAt statement.offset
  let fragment := source.line line
  let balance := statement.text.balance
  (balanceFinding? balance line fragment).toList ++
  placeFindings document source statement trailingCommaPattern trailingComma
    "Comma directly before a closing parenthesis" "Remove the trailing comma" ++
  placeFindings document source statement doubledCommaPattern doubledComma
    "Two commas with nothing between them" "Remove the extra comma or add the missing item" ++
  -- What does not close is reported already, and the parser is not asked.
  if balance.isBalanced then
    ((parser.bind fun parse => parse statement.text).map fun reason =>
      { rejected.finding line fragment s!"Parser rejected statement: {reason}" with
        confidence := hundredths 50 }).toList
  else []

/-- The findings of a document without comments; `source` is the document as it is written. -/
def checkAll (document source : Text) (parser : Option (Text → Option String)) : List Finding :=
  document.statements.flatMap (check document source parser)

end StatementCheck
end SqlAudit
