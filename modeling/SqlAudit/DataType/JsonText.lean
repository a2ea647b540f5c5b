import SqlAudit.Power
import SqlAudit.Text.Numeral

/-!
Recognising JSON.  A reader gives what is left after what it read.  Apart from the grammar there are
two limits: nesting stops below 128 levels, and a number must not exceed the finite double-precision
numbers.
-/

namespace SqlAudit
namespace JsonText

def isSpace (c : Char) : Bool := c == ' ' || c == '\t' || c == '\n' || c == '\r'

def skipSpace (t : Text) : Text := t.dropWhile isSpace

/-! ## Numbers -/

/-- The largest whole part that is read exactly. -/
def largestWhole : Nat := twoTo 64 - 1

/-- A whole number rounded to 53 binary digits, with ties to even. -/
def roundToDouble (n : Nat) : Nat :=
  let shift := n.log2 - 52
  let quotient := n >>> shift
  let rest := n % twoTo shift
  let half := twoTo shift / 2
  let up := rest > half ∨ rest = half ∧ shift ≠ 0 ∧ quotient % 2 = 1
  (if up then quotient + 1 else quotient) <<< shift

/-- Whether the product of a number and a power of ten, each rounded to double precision, rounds to
a finite double.  Negative powers always do. -/
def isFinite (significand : Nat) (exponent : Int) : Bool :=
  if exponent < 0 then true
  else if exponent > 308 then significand == 0
  else roundToDouble significand * roundToDouble (tenTo exponent.toNat) <
    twoTo 1024 - twoTo 970

/-- The significand of a number as it is read: once it has no room for another digit, `exponent`
counts the digits that follow. -/
structure Significand where
  value : Nat
  exponent : Int
  full : Bool

def Significand.whole (s : Significand) (digit : Nat) : Significand :=
  if s.full ∨ 10 * s.value + digit > largestWhole then
    { s with exponent := s.exponent + 1, full := true }
  else { s with value := 10 * s.value + digit }

/-- A further digit of the fraction; one without room is dropped, and so are those after it. -/
def Significand.fraction (s : Significand) (digit : Nat) : Significand :=
  if s.full ∨ 10 * s.value + digit > largestWhole then { s with full := true }
  else { s with value := 10 * s.value + digit, exponent := s.exponent - 1 }

def digitsOf (t : Text) : List Nat := t.filterMap Text.decimalDigit?

/-- Reads the exponent, if there is one; gives its value and what is left. -/
def readExponent? : Text → Option (Int × Text)
  | [] => some (0, [])
  | c :: rest =>
    if c = 'e' ∨ c = 'E' then
      let (sign, body) := match rest with
        | '+' :: body => (1, body)
        | '-' :: body => (-1, body)
        | _ => ((1 : Int), rest)
      (Text.decimal? (body.takeWhile Char.isDigit)).map fun n =>
        (sign * Int.ofNat n, body.dropWhile Char.isDigit)
    else some (0, c :: rest)

/-- Reads the fraction, if there is one, and then the exponent. -/
def readFraction? (s : Significand) (t : Text) : Option Text :=
  let body : Option (Significand × Text) := match t with
    | '.' :: rest =>
      let digits := rest.takeWhile Char.isDigit
      if digits.isEmpty then none
      else some ((digitsOf digits).foldl Significand.fraction { s with full := false },
        rest.dropWhile Char.isDigit)
    | _ => some (s, t)
  do
    let (s, t) ← body
    let (exponent, t) ← readExponent? t
    if isFinite s.value (s.exponent + exponent) then some t else none

/-- Reads a number without its sign: no digit follows a zero at the front. -/
def readNumber? (t : Text) : Option Text :=
  let digits := t.takeWhile Char.isDigit
  if digits.isEmpty ∨ digits.head? = some '0' ∧ digits.length ≠ 1 then none
  else readFraction? ((digitsOf digits).foldl Significand.whole ⟨0, 0, false⟩)
    (t.dropWhile Char.isDigit)

/-! ## Strings -/

def readUnit? (t : Text) : Option (Nat × Text) :=
  if t.length < 4 then none
  else (Text.inBase? 16 (t.take 4)).map fun unit => (unit, t.drop 4)

/-- Reads the rest of a string. -/
def readString? : (fuel : Nat) → Text → Option Text
  | 0, _ => none
  | fuel + 1, t =>
    match t with
    | [] => none
    | '\\' :: 'u' :: rest => do
      let (unit, rest) ← readUnit? rest
      -- Two escapes make a character beyond the first plane; one half of such a pair is refused.
      if 0xDC00 ≤ unit ∧ unit ≤ 0xDFFF then none
      else if 0xD800 ≤ unit ∧ unit ≤ 0xDBFF then
        match rest with
        | '\\' :: 'u' :: more =>
          let (low, more) ← readUnit? more
          if 0xDC00 ≤ low ∧ low ≤ 0xDFFF then readString? fuel more else none
        | _ => none
      else readString? fuel rest
    | '\\' :: c :: rest =>
      if "\"\\/bfnrt".toList.contains c then readString? fuel rest else none
    | c :: rest =>
      if c = '\x22' then some rest
      else if c = '\\' ∨ c.toNat < 0x20 then none
      else readString? fuel rest

/-! ## Values -/

/-- What a reader expects next: a value, the items of an array after an opening bracket or a comma,
or the members of an object. -/
inductive Expected where
  | value
  | item
  | member
  deriving DecidableEq, Repr

/-- What follows an item or a member: a comma and another one, or the closing bracket. -/
def readMore? (close : Char) (next : Text → Option Text) (t : Text) : Option Text :=
  match skipSpace t with
  | [] => none
  | c :: rest => if c = ',' then next rest else if c = close then some rest else none

/-- Reads what is expected, with `room` levels of nesting left.  Each step reads a character, so the
length of the text bounds the steps. -/
def read? : (fuel : Nat) → (room : Nat) → Expected → Text → Option Text
  | 0, _, _, _ => none
  | fuel + 1, room, .value, t =>
    match skipSpace t with
    | [] => none
    | c :: rest =>
      if c = '[' then
        if room = 0 then none
        else match skipSpace rest with
          | ']' :: after => some after
          | _ => read? fuel (room - 1) .item rest
      else if c = '\x7b' then
        if room = 0 then none
        else match skipSpace rest with
          | [] => none
          | d :: after => if d = '\x7d' then some after else read? fuel (room - 1) .member rest
      else if c = '\x22' then readString? (rest.length + 1) rest
      else if c = '-' then readNumber? rest
      else if c.isDigit then readNumber? (c :: rest)
      else if "null".toList.isPrefixOf (c :: rest) then some (rest.drop 3)
      else if "true".toList.isPrefixOf (c :: rest) then some (rest.drop 3)
      else if "false".toList.isPrefixOf (c :: rest) then some (rest.drop 4)
      else none
  | fuel + 1, room, .item, t => do
    readMore? ']' (read? fuel room .item) (← read? fuel room .value t)
  | fuel + 1, room, .member, t =>
    match skipSpace t with
    | [] => none
    | c :: rest =>
      if c = '\x22' then do
        let t ← readString? (rest.length + 1) rest
        match skipSpace t with
        | ':' :: after =>
          readMore? '\x7d' (read? fuel room .member) (← read? fuel room .value after)
        | _ => none
      else none

def deepest : Nat := 127

/-- Whether a text is a JSON value with blanks around it. -/
def isJson (t : Text) : Bool :=
  match read? (2 * t.length + 2) deepest .value t with
  | some rest => (skipSpace rest).isEmpty
  | none => false

end JsonText
end SqlAudit
