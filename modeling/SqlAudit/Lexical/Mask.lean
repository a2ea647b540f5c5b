import SqlAudit.Lexical.Quote

/-!
The contents of string literals are replaced by spaces, so that code patterns do not see them.
-/

namespace SqlAudit

/-- Where a scan stands with respect to single-quoted literals, the only quotes it looks at. -/
inductive LiteralState where
  | outside
  | inside
  | escaped
  deriving DecidableEq, Repr

namespace Text

def maskFrom (escapes : Escapes) : LiteralState → Text → Text
  | _, [] => []
  | .outside, c :: rest =>
    c :: maskFrom escapes (if c = '\x27' then .inside else .outside) rest
  | .inside, c :: rest =>
    if escapes = .backslash ∧ c = '\\' then blanks c ++ maskFrom escapes .escaped rest
    else if c = '\x27' then c :: maskFrom escapes .outside rest
    else blanks c ++ maskFrom escapes .inside rest
  | .escaped, c :: rest => blanks c ++ maskFrom escapes .inside rest

/-- Blanks what stands inside single quotes.  The quotes stay, and so do all offsets. -/
def mask (t : Text) : Text := maskFrom t.escapes .outside t

end Text
end SqlAudit
