import SqlAudit.Pattern.Vocabulary
import SqlAudit.Review.Finding

/-!
Rules that look at one line at a time.
-/

namespace SqlAudit

structure SourceLine where
  number : Nat
  /-- The line with comments blanked. -/
  raw : Text
  /-- The line with comments and the contents of literals blanked. -/
  code : Text
  /-- The line as it is written. -/
  source : Text

/-- A rule: what it is called, and what it finds on a line. -/
structure Rule where
  info : RuleInfo
  check : SourceLine → Option Finding

/-- A rule given by patterns. -/
structure LineRule where
  info : RuleInfo
  pattern : Pattern
  /-- Whether a match counts; one that counts is enough. -/
  confirm : Match → Bool := fun _ => true
  /-- What acquits the line, wherever it stands. -/
  unless? : Option Pattern := none
  /-- Whether the contents of literals are looked at. -/
  seesLiterals : Bool := false
  message : String
  suggestion : String
  confidence : Float32 := 1

namespace LineRule

def fires (rule : LineRule) (line : SourceLine) : Bool :=
  (rule.pattern.findAll (if rule.seesLiterals then line.raw else line.code)).any rule.confirm &&
  !rule.unless?.any (·.occursIn line.code)

def check (rule : LineRule) (line : SourceLine) : Option Finding :=
  if rule.fires line then
    some { rule.info.finding line.number (Text.trim line.source) rule.message with
      suggestion := some rule.suggestion, confidence := rule.confidence }
  else none

def toRule (rule : LineRule) : Rule := ⟨rule.info, rule.check⟩

end LineRule

namespace Pattern

/-- A character of a table name as statements write it: dots, quotes and brackets included. -/
def isTableChar (c : Char) : Bool :=
  Text.isWordChar c || c == '.' || c == '$' || c == '\x60' || c == '\x22' || c == '[' || c == ']'

/-- A condition on the rows of a statement. -/
def wherePattern : Pattern := keyword "WHERE"

end Pattern
end SqlAudit
