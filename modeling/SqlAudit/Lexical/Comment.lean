import SqlAudit.Lexical.Quote

/-!
Comments are replaced by spaces, byte for byte, so that every offset and line number found in the
result is one of the source.
-/

namespace SqlAudit

/-- Where a scan stands with respect to comments.  `fresh` says that only blanks were read since
the line began, which is where a number sign opens a comment; a block comment leaves it as it was. -/
inductive CommentState where
  | code (quote : QuoteState) (fresh : Bool)
  | line
  /-- Between the two characters that open a block comment. -/
  | opening (fresh : Bool)
  | block (star : Bool) (fresh : Bool)
  deriving DecidableEq, Repr

namespace Text

/-- Blanks comments in the rest of a text.  With `hash` a number sign opens a comment anywhere. -/
def blankCommentsFrom (escapes : Escapes) (hash : Bool) : CommentState → Text → Text
  | _, [] => []
  | .code quote fresh, c :: rest =>
    if quote.holds c then
      c :: blankCommentsFrom escapes hash (.code (quote.next escapes c) false) rest
    else if c = '-' ∧ rest.head? = some '-' ∨ c = '#' ∧ (fresh ∨ hash) then
      blanks c ++ blankCommentsFrom escapes hash .line rest
    else if c = '/' ∧ rest.head? = some '*' then
      blanks c ++ blankCommentsFrom escapes hash (.opening fresh) rest
    else
      c :: blankCommentsFrom escapes hash (.code quote (c = '\n' ∨ fresh ∧ isBlank c)) rest
  | .line, c :: rest =>
    if c = '\n' then c :: blankCommentsFrom escapes hash (.code .code true) rest
    else blanks c ++ blankCommentsFrom escapes hash .line rest
  -- The star is read by itself, so that it cannot be the one that closes the block.
  | .opening fresh, c :: rest =>
    blanks c ++ blankCommentsFrom escapes hash (.block false fresh) rest
  | .block star fresh, c :: rest =>
    (if c = '\n' then [c] else blanks c) ++
      if star ∧ c = '/' then blankCommentsFrom escapes hash (.code .code fresh) rest
      else blankCommentsFrom escapes hash (.block (c = '*') fresh) rest

def blankCommentsUnder (escapes : Escapes) (hash : Bool) (t : Text) : Text :=
  blankCommentsFrom escapes hash (.code .code true) t

/-- Blanks the comments of a text: two dashes or a number sign up to the end of the line, and
blocks. -/
def blankComments (t : Text) (hash : Bool) : Text :=
  -- A quote in a comment is no quote, so the convention for backslashes is settled on the results:
  -- the standard one, unless it leaves a quote open and the other does not.
  let standard := blankCommentsUnder .standard hash t
  if (standard.openQuote? .standard).isNone then standard
  else
    let backslash := blankCommentsUnder .backslash hash t
    if (backslash.openQuote? .backslash).isNone then backslash else standard

end Text
end SqlAudit
