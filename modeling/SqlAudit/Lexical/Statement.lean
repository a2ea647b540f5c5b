import SqlAudit.Lexical.Quote

/-!
Statements of a document.  Parentheses play no part in finding them, so that an unbalanced
statement does not swallow the ones after it.
-/

namespace SqlAudit

/-- A statement inside a document: the byte offset of its first character, and its text without
blanks at the ends and without the semicolon. -/
structure Statement where
  offset : Nat
  text : Text
  deriving DecidableEq, Repr

namespace Text

/-- Cuts marked characters at each semicolon outside quotes. -/
def cutStatements : List Mark → List Text
  | [] => [[]]
  | m :: rest => if m.isCode ';' then [] :: cutStatements rest else extend m.char (cutStatements rest)

/-- The statements among consecutive pieces, the first of which starts at `offset`. -/
def placeStatements : (offset : Nat) → List Text → List Statement
  | _, [] => []
  | offset, piece :: more =>
    -- One byte, the semicolon, stands between two pieces.
    let following := placeStatements (offset + piece.size + 1) more
    let body := piece.trimStart
    if body.isEmpty then following
    else ⟨offset + (piece.size - size body), trimEnd body⟩ :: following

/-- The statements of a document without comments. -/
def statements (t : Text) : List Statement :=
  placeStatements 0 (cutStatements (t.marks t.escapes))

end Text
end SqlAudit
