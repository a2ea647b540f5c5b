import SqlAudit.Text.Digit
import SqlAudit.Pattern.Search

/-!
The pieces from which patterns over SQL texts are put together.
-/

namespace SqlAudit
namespace Pattern

def space : Pattern := many Text.isBlank

/-- Blanks, one at least. -/
def gap : Pattern := many1 Text.isBlank

def sign (c : Char) : Pattern := char (· == c)

def oneOf (s : String) : Pattern := char s.toList.contains

def noneOf (s : String) : Char → Bool := fun c => !s.toList.contains c

def digit : Pattern := char Text.isDigit

def digits : Pattern := many1 Text.isDigit

def phrase (words : List String) : Pattern := all ((words.map word).intersperse gap)

def keyword (s : String) : Pattern := all [edge, word s, edge]

def oneWordOf (words : List String) : Pattern := any (words.map word)

/-- A character of a bare name. -/
def isNameChar (c : Char) : Bool := Text.isWordChar c || c == '$'

/-- A bare name, or a name in backticks, double quotes or brackets. -/
def name : Pattern :=
  any [many1 isNameChar,
    all [sign '\x60', many1 (· != '\x60'), sign '\x60'],
    all [sign '\x22', many1 (· != '\x22'), sign '\x22'],
    all [sign '[', many1 (· != ']'), sign ']']]

/-- A name with qualifying names before it, separated by dots without blanks. -/
def dottedName : Pattern := seq name (star (seq (sign '.') name))

/-- A name with qualifying names before it, separated by dots with or without blanks. -/
def spacedName : Pattern := seq name (star (all [space, sign '.', space, name]))

/-- The first character of a plain word: an unaccented letter or an underscore.  Letters that fold
to an unaccented one count as well. -/
def isWordStart (c : Char) : Bool :=
  c.isAlpha || c == '_' || c.toNat == 0x17F || c.toNat == 0x212A

def plainWord : Pattern := seq (char isWordStart) (many Text.isWordChar)

end Pattern
end SqlAudit
