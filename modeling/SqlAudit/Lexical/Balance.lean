import SqlAudit.Lexical.Quote

/-!
Whether the parentheses and quotes of a text close.
-/

namespace SqlAudit

/-- What a scan of a text finds about its parentheses and quotes. -/
structure Balance where
  /-- Opening minus closing parentheses outside quotes. -/
  depth : Int
  /-- The lowest depth on the way; below zero, a parenthesis closed nothing. -/
  lowest : Int
  openQuote : Option Quote
  deriving DecidableEq, Repr

namespace Balance

def isBalanced (b : Balance) : Bool := b.depth == 0 && b.lowest == 0 && b.openQuote.isNone

/-- The depth and the lowest depth after one more character. -/
def count (d : Int × Int) (m : Mark) : Int × Int :=
  if m.isCode '(' then (d.1 + 1, d.2)
  else if m.isCode ')' then (d.1 - 1, min d.2 (d.1 - 1))
  else d

end Balance

namespace Text

def balance (t : Text) : Balance :=
  let depths := (t.marks t.escapes).foldl Balance.count (0, 0)
  ⟨depths.1, depths.2, t.openQuote? t.escapes⟩

end Text
end SqlAudit
