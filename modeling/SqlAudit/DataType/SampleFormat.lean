import SqlAudit.DataType.Calendar
import SqlAudit.DataType.IpAddress
import SqlAudit.DataType.JsonText
import SqlAudit.Power

/-!
How a sample value must look to count as evidence for a type.
-/

namespace SqlAudit

inductive SampleFormat where
  /-- A whole number from `first` to `last`. -/
  | integer (first last : Int)
  | decimal
  | float
  /-- An amount with a currency sign or with two decimal places. -/
  | money
  | boolean
  | date
  | time
  | dateTime
  /-- A date and time with an offset. -/
  | dateTimeZone
  | interval
  /-- Text, of at most so many characters if a number is given. -/
  | text (longest : Option Nat)
  | hex
  | json
  | xml
  | uuid
  | ipAddress
  | network
  | macAddress
  | geometry
  | point
  /-- A list in braces that is no JSON. -/
  | array
  deriving DecidableEq, Repr

namespace SampleFormat

open Pattern

/-- The range of whole numbers that are read at all. -/
def leastInteger : Int := -(twoTo 127 : Int)

def greatestInteger : Int := (twoTo 127 : Int) - 1

/-- Reads a whole number; one plus sign may stand before its sign. -/
def readInteger? (t : Text) : Option Int :=
  Text.signed? leastInteger greatestInteger (match t with
    | '+' :: rest => rest
    | _ => t)

/-! ## Patterns -/

def plusMinus : Pattern := oneOf "+-"

def numeral : Pattern :=
  any [all [digits, opt (sign '.'), many Text.isDigit], seq (sign '.') digits]

def decimalPattern : Pattern := all [start, opt plusMinus, numeral, stop]

def floatPattern : Pattern :=
  all [start, any
    [all [opt plusMinus, numeral, opt (all ["e", opt plusMinus, digits])],
     all [opt plusMinus, "inf", opt "inity"],
     "nan"], stop]

/-- Digits, in groups of three with commas between them or without. -/
def amount : Pattern :=
  any [all [digit, upTo 2 digit, plus (seq (sign ',') (exactly 3 digit))], digits]

def moneyPattern : Pattern :=
  all [start, opt plusMinus, any
    [all [oneOf "$€£¥", opt (char Text.isBlank), amount,
       opt (all [sign '.', digit, upTo 1 digit])],
     all [amount, sign '.', exactly 2 digit]], stop]

def secondFraction : Pattern := all [sign '.', digit, upTo 8 digit]

/-- Two digits below sixty. -/
def sixtieth : Pattern := seq (oneOf "012345") digit

def timePattern : Pattern :=
  all [start, any [seq (oneOf "01") digit, seq (sign '2') (oneOf "0123")], sign ':', sixtieth,
    opt (all [sign ':', sixtieth, opt secondFraction]), stop]

/-- A date, a blank or `T`, the digits of a time, and possibly an offset. -/
def dateTimePattern : Pattern :=
  all [start,
    capture .date (all [exactly 4 digit, sign '-', exactly 2 digit, sign '-', exactly 2 digit]),
    oneOf " T", exactly 2 digit, sign ':', exactly 2 digit,
    opt (all [sign ':', exactly 2 digit, opt secondFraction]),
    opt (capture .zone (any [sign 'Z',
      all [plusMinus, exactly 2 digit, opt (seq (opt (sign ':')) (exactly 2 digit))]])), stop]

def designated (letter : String) : Pattern := opt (seq digits letter)

def period : Pattern :=
  all ["P", designated "Y", designated "M", designated "W", designated "D",
    opt (all ["T", designated "H", designated "M",
      opt (all [digits, opt (seq (sign '.') digits), "S"])])]

def plural (s : String) : Pattern := seq s (opt "s")

def timeSpan : Pattern :=
  all [opt plusMinus, digits, space,
    any (["year", "mon", "month", "week", "day", "hour", "minute", "min", "second", "sec"].map
      plural),
    space]

def intervalPattern : Pattern := all [start, any [period, plus timeSpan], stop]

def isHexDigit (c : Char) : Bool := (Text.baseDigit? 16 c).isSome

def hexDigit : Pattern := char isHexDigit

def hexPattern : Pattern :=
  all [start, any [Pattern.text "0x", Pattern.text "\\x"], many1 isHexDigit, stop]

def uuidPattern : Pattern :=
  all [start, opt (sign '\x7b'), exactly 8 hexDigit, sign '-', exactly 4 hexDigit, sign '-',
    exactly 4 hexDigit, sign '-', exactly 4 hexDigit, sign '-', exactly 12 hexDigit,
    opt (sign '\x7d'), stop]

def macPair : Pattern := seq (oneOf ":-") (exactly 2 hexDigit)

def macPattern : Pattern :=
  all [start, exactly 2 hexDigit, exactly 5 macPair, opt (exactly 2 macPair), stop]

def geometryPattern : Pattern :=
  all [start, opt (all ["SRID=", digits, sign ';']),
    oneWordOf ["POINT", "LINESTRING", "POLYGON", "MULTIPOINT", "MULTILINESTRING", "MULTIPOLYGON",
      "GEOMETRYCOLLECTION"],
    space, opt (oneWordOf ["Z", "M", "ZM"]), space, sign '(', many (· != '\n'), sign ')', stop]

/-- A coordinate: digits, with a point only between digits. -/
def coordinate : Pattern := all [opt plusMinus, digits, opt (seq (sign '.') digits)]

def pointPattern : Pattern :=
  all [start, any
    [all [sign '(', space, coordinate, space, sign ',', space, coordinate, space, sign ')'],
     all ["POINT", space, sign '(', space, coordinate, gap, coordinate, space, sign ')']], stop]

/-! ## Acceptance -/

def acceptsJson (t : Text) : Bool :=
  (t.head? == some '\x7b' || t.head? == some '[') && JsonText.isJson t

def acceptsXml (t : Text) : Bool :=
  t.head? == some '<' && t.getLast? == some '>' &&
  (Text.contains t ['<', '/'] || ['/', '>'].isSuffixOf t)

def truthWords : List String := ["true", "false", "t", "f", "yes", "no", "y", "n", "0", "1"]

def acceptsDateTime (t : Text) (needsZone : Bool) : Bool :=
  -- The date must be one of the calendar; the pattern asks the clock for its form alone.
  (dateTimePattern.find? t).any fun m =>
    Calendar.accepts (m.textOf .date) && (!needsZone || (m.part? .zone).isSome)

/-- Whether a value, trimmed before, has the format. -/
def accepts (format : SampleFormat) (t : Text) : Bool :=
  match format with
  | .integer first last => (readInteger? t).any fun n => first ≤ n && n ≤ last
  | .decimal => decimalPattern.occursIn t
  | .float => floatPattern.occursIn t
  | .money => moneyPattern.occursIn t
  | .boolean => truthWords.any fun w => w.toList == t.map Char.toLower
  | .date => Calendar.accepts t
  | .time => timePattern.occursIn t
  | .dateTime => acceptsDateTime t false
  | .dateTimeZone => acceptsDateTime t true
  | .interval => intervalPattern.occursIn t && t.size > 1
  | .text longest => longest.all (t.length ≤ ·)
  | .hex => hexPattern.occursIn t
  | .json => acceptsJson t
  | .xml => acceptsXml t
  | .uuid => uuidPattern.occursIn t
  | .ipAddress => (IpAddress.version? t).isSome
  | .network => IpAddress.isNetwork t
  | .macAddress => macPattern.occursIn t
  | .geometry => geometryPattern.occursIn t
  | .point => pointPattern.occursIn t
  | .array => t.head? == some '\x7b' && t.getLast? == some '\x7d' && !acceptsJson t

end SampleFormat
end SqlAudit
