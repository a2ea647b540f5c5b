import SqlAudit.Text.WordChar
import SqlAudit.Text.Basic

/-!
Positions in a text.
-/

namespace SqlAudit

/-- A position in a text: the characters read so far, latest first, and those that are left. -/
structure Cursor where
  before : Text
  after : Text
  deriving DecidableEq, Repr

namespace Cursor

def first (t : Text) : Cursor := ⟨[], t⟩

/-- The text that the position belongs to. -/
def text (c : Cursor) : Text := c.before.reverse ++ c.after

/-- The byte offset of the position. -/
def offset (c : Cursor) : Nat := Text.size c.before

/-- The position lies between a word character and something else. -/
def atEdge (c : Cursor) : Bool :=
  c.before.head?.any Text.isWordChar != c.after.head?.any Text.isWordChar

def upTo (start stop : Cursor) : Text :=
  start.after.take (start.after.length - stop.after.length)

end Cursor
end SqlAudit
