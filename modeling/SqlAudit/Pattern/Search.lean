import SqlAudit.Pattern.Basic

/-!
Searching a text for a pattern: the leftmost position where it matches, and there the first way.
-/

namespace SqlAudit

structure Match where
  start : Cursor
  stop : Cursor
  captures : List Capture

namespace Match

def text (m : Match) : Text := m.start.upTo m.stop

/-- The captured part, the latest if the pattern passed it more than once. -/
def part? (m : Match) (part : Part) : Option Capture := m.captures.find? (·.part = part)

def textOf? (m : Match) (part : Part) : Option Text := (m.part? part).map Capture.text

/-- The text of a captured part, empty if the pattern did not pass it. -/
def textOf (m : Match) (part : Part) : Text := (m.textOf? part).getD []

end Match

namespace Pattern

def matchAt? (p : Pattern) (c : Cursor) : Option Match :=
  (p.ways ⟨c, []⟩).head?.map fun w => ⟨c, w.cursor, w.captures⟩

/-- The leftmost match at or after a position, given by the characters on either side. -/
def findBetween? (p : Pattern) : (before after : Text) → Option Match
  | before, [] => p.matchAt? ⟨before, []⟩
  | before, c :: rest =>
    match p.matchAt? ⟨before, c :: rest⟩ with
    | some m => some m
    | none => findBetween? p (c :: before) rest

/-- The leftmost match at or after a position.  What stands before the position still decides
whether a word starts there. -/
def findFrom? (p : Pattern) (c : Cursor) : Option Match := p.findBetween? c.before c.after

def find? (p : Pattern) (t : Text) : Option Match := p.findFrom? (Cursor.first t)

def occursIn (p : Pattern) (t : Text) : Bool := (p.find? t).isSome

/-- Up to `count` matches from the left, each one starting where the one before it stopped or
later. -/
def findUpTo (p : Pattern) : (count : Nat) → Cursor → List Match
  | 0, _ => []
  | count + 1, c =>
    match p.findFrom? c with
    | none => []
    | some m => m :: findUpTo p count m.stop

/-- All matches in a text, from the left and without overlap.  A match reads a character at least,
so their number is at most the length of the text. -/
def findAll (p : Pattern) (t : Text) : List Match := p.findUpTo t.length (Cursor.first t)

end Pattern
end SqlAudit
