import SqlAudit.Lexical.Quote

/-!
Lists at the top level of a text: their items are separated by a delimiter that stands outside
quotes and parentheses.
-/

namespace SqlAudit
namespace Text

/-- Cuts marked characters at each delimiter of depth zero. -/
def cutFrom (delimiter : Char) : Nat → List Mark → List Text
  | _, [] => [[]]
  | depth, m :: rest =>
    if m.quoted then extend m.char (cutFrom delimiter depth rest)
    else if m.char = '(' then extend m.char (cutFrom delimiter (depth + 1) rest)
    -- A parenthesis that closes nothing leaves the depth at zero.
    else if m.char = ')' then extend m.char (cutFrom delimiter (depth - 1) rest)
    else if m.char = delimiter ∧ depth = 0 then [] :: cutFrom delimiter depth rest
    else extend m.char (cutFrom delimiter depth rest)

def dropTrailingEmpty (ts : List Text) : List Text := (ts.reverse.dropWhile (·.isEmpty)).reverse

/-- The items of a list at the top level, trimmed, without the empty ones at its end. -/
def segments (t : Text) (delimiter : Char) : List Text :=
  dropTrailingEmpty ((cutFrom delimiter 0 (t.marks t.escapes)).map trim)

end Text
end SqlAudit
