import SqlAudit.Pattern.Cursor

/-!
Patterns over texts.  A pattern has several ways to match at a position, and they are ordered: an
alternative on the left comes before one on the right, and a repetition prefers more rounds unless
it is reluctant.  The match of a pattern is the first way.
-/

namespace SqlAudit

/-- What a captured part of a match stands for. -/
inductive Part where
  | name
  | table
  | column
  | columns
  | remote
  | index
  | unique
  | body
  | arguments
  | label
  | qualifier
  | otherQualifier
  | otherColumn
  | left
  | right
  | between
  | year
  | month
  | day
  | date
  | zone
  deriving DecidableEq, Repr

/-- A pattern.  A run of characters of one class has a constructor of its own, because the ways to
match it are the prefixes of one run. -/
inductive Pattern where
  | done
  | char (accepts : Char → Bool)
  | run (reluctant : Bool) (accepts : Char → Bool)
  | seq (first second : Pattern)
  | alt (left right : Pattern)
  | star (body : Pattern)
  | capture (part : Part) (body : Pattern)
  | edge
  | start
  | stop

/-- A captured part: the positions where it starts and stops. -/
structure Capture where
  part : Part
  start : Cursor
  stop : Cursor
  deriving DecidableEq, Repr

namespace Capture

def text (c : Capture) : Text := c.start.upTo c.stop

end Capture

/-- A way to match: the position reached and the parts captured, latest first. -/
structure Way where
  cursor : Cursor
  captures : List Capture

namespace Pattern

/-- The positions inside and after a run of accepted characters, shortest first. -/
def stops (accepts : Char → Bool) : (before after : Text) → List Cursor
  | before, [] => [⟨before, []⟩]
  | before, c :: rest =>
    ⟨before, c :: rest⟩ :: if accepts c then stops accepts (c :: before) rest else []

/-- The ways to take up to `rounds` steps, more steps first. -/
def rounds (step : Way → List Way) : Nat → Way → List Way
  | 0, w => [w]
  | n + 1, w => (step w).flatMap (rounds step n) ++ [w]

/-- The ways to match a pattern, first choice first. -/
def ways : Pattern → Way → List Way
  | .done, w => [w]
  | .char accepts, w =>
    match w.cursor.after with
    | [] => []
    | c :: rest => if accepts c then [{ w with cursor := ⟨c :: w.cursor.before, rest⟩ }] else []
  | .run reluctant accepts, w =>
    let found := stops accepts w.cursor.before w.cursor.after
    (if reluctant then found else found.reverse).map fun cursor => { w with cursor }
  | .seq first second, w => (first.ways w).flatMap second.ways
  | .alt left right, w => left.ways w ++ right.ways w
  -- A repeated body reads a character at least, so the length of what is left bounds the rounds.
  | .star body, w => rounds body.ways w.cursor.after.length w
  | .capture part body, w =>
    (body.ways w).map fun v => { v with captures := ⟨part, w.cursor, v.cursor⟩ :: v.captures }
  | .edge, w => if w.cursor.atEdge then [w] else []
  | .start, w => if w.cursor.before.isEmpty then [w] else []
  | .stop, w => if w.cursor.after.isEmpty then [w] else []

/-! ## Compound patterns -/

def all : List Pattern → Pattern
  | [] => done
  | [p] => p
  | p :: more => seq p (all more)

def any : List Pattern → Pattern
  | [] => char fun _ => false
  | [p] => p
  | p :: more => alt p (any more)

def opt (p : Pattern) : Pattern := alt p done

def plus (p : Pattern) : Pattern := seq p (star p)

def exactly (n : Nat) (p : Pattern) : Pattern := all (List.replicate n p)

/-- The pattern up to a number of times, as often as possible. -/
def upTo : Nat → Pattern → Pattern
  | 0, _ => done
  | n + 1, p => opt (seq p (upTo n p))

def many (accepts : Char → Bool) : Pattern := run false accepts

def many1 (accepts : Char → Bool) : Pattern := seq (char accepts) (many accepts)

/-- Accepted characters, as few as possible. -/
def few (accepts : Char → Bool) : Pattern := run true accepts

def few1 (accepts : Char → Bool) : Pattern := seq (char accepts) (few accepts)

/-- A text as it is written. -/
def text (s : String) : Pattern := all (s.toList.map fun c => char (· == c))

/-- Whether a character is a letter up to case. -/
def sameLetter (letter c : Char) : Bool :=
  c.toLower == letter.toLower ||
  -- The long s and the Kelvin sign fold to seven-bit letters.
  c.toNat == 0x17F && letter.toLower == 's' ||
  c.toNat == 0x212A && letter.toLower == 'k'

/-- A text in any case. -/
def word (s : String) : Pattern := all (s.toList.map fun c => char (sameLetter c))

instance : Coe String Pattern := ⟨word⟩

end Pattern
end SqlAudit
