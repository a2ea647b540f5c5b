import SqlAudit.DataType.Calendar
import SqlAudit.Decimal.Basic
import SqlAudit.Power
import SqlAudit.Toml.Basic

/-!
Values without parts: numbers, truth values, dates and times, and strings.
-/

namespace SqlAudit
namespace Toml

/-! ## Numbers

The form of a number is looked at when a document is read, its value when it is asked for.  Not every
text of the form has a value. -/

/-- Digits without the underscores between them; an underscore stands between two digits. -/
def plainDigits? (t : Text) : Option Text :=
  let groups := Text.pieces (· == '_') t
  if groups.all (!·.isEmpty) then some groups.flatten else none

def splitSign : Text → Int × Text
  | '+' :: rest => (1, rest)
  | '-' :: rest => (-1, rest)
  | t => (1, t)

/-- A whole number in decimal digits, without zeros at the front. -/
def natural? (t : Text) : Option Nat := do
  let digits ← plainDigits? t
  if digits.head? = some '0' ∧ digits.length ≠ 1 then none else Text.decimal? digits

/-- Whether a character is a digit of some base. -/
def isAnyDigit (c : Char) : Bool := (Text.baseDigit? 16 c).isSome

/-- Whether a text has the form of a decimal whole number with underscores: digits come first, and on
both sides of an underscore there is a digit of some base.  What else stands in it is not looked at. -/
def isGrouped (t : Text) : Bool :=
  t.all (!"=[\x7b.eE".toList.contains ·) &&
    match Text.pieces (· == '_') t with
    | first :: groups =>
      !first.isEmpty && first.all Char.isDigit && first.head? != some '0' && !groups.isEmpty &&
        groups.all (·.head?.any isAnyDigit) && groups.dropLast.all (·.getLast?.any isAnyDigit)
    | [] => false

/-- A whole number in digits of a base.  Without digits it has no value. -/
def based? (base : Nat) (t : Text) : Option Toml :=
  if t.isEmpty then some .unreadable
  else do some (.integer (Int.ofNat (← Text.inBase? base (← plainDigits? t))))

/-- A whole number of any size. -/
def integer? (t : Text) : Option Toml :=
  match t with
  | '0' :: 'x' :: rest => based? 16 rest
  | '0' :: 'o' :: rest => based? 8 rest
  | '0' :: 'b' :: rest => based? 2 rest
  | _ =>
    let (sign, body) := splitSign t
    match natural? body with
    | some value => some (.integer (sign * Int.ofNat value))
    | none => if isGrouped body then some .unreadable else none

/-- The digits of a fraction with the point before them, and what is left. -/
def fraction? : Text → Option (Text × Text)
  | '.' :: rest => do
    let written := rest.takeWhile fun c => c.isDigit || c == '_'
    let digits ← plainDigits? written
    some (digits, rest.drop written.length)
  | t => some ([], t)

/-- The exponent of ten at the end of a number. -/
def exponent? : Text → Option Int
  | [] => some 0
  | c :: rest => do
    if c ≠ 'e' ∧ c ≠ 'E' then none
    else
      let (sign, digits) := splitSign rest
      some (sign * Int.ofNat (← Text.decimal? (← plainDigits? digits)))

/-- A number with a fraction or an exponent, or one that is infinite or undefined. -/
def real? (t : Text) : Option Toml := do
  let body := (splitSign t).2
  if body = "inf".toList ∨ body = "nan".toList then some .real
  else
    let whole := body.takeWhile fun c => c.isDigit || c == '_'
    let rest := body.drop whole.length
    if rest.isEmpty then none
    let _ ← natural? whole
    let (places, rest) ← fraction? rest
    let exponent ← exponent? rest
    let digits ← Text.decimal? ((← plainDigits? whole) ++ places)
    some (if Decimal.isFinite ⟨digits, exponent - places.length⟩ then .real else .unreadable)

/-! ## Dates and times -/

/-- A number of exactly `count` digits that is at most `last`, and what is left. -/
def digits? (count last : Nat) (t : Text) : Option (Nat × Text) := do
  let value ← Text.decimal? (t.take count)
  if t.length < count ∨ last < value then none else some (value, t.drop count)

def skip? (c : Char) : Text → Option Text
  | d :: rest => if d = c then some rest else none
  | [] => none

def afterDate? (t : Text) : Option Text := do
  let (year, t) ← digits? 4 9999 t
  let (month, t) ← digits? 2 12 (← skip? '-' t)
  let (day, t) ← digits? 2 31 (← skip? '-' t)
  if Calendar.isDate year month day then some t else none

/-- A fraction of a second in nanoseconds, without zeros at its end. -/
def secondFraction (digits : Text) : Text :=
  let kept := ((digits.take 9).reverse.dropWhile (· == '0')).reverse
  if kept.isEmpty then [] else '.' :: kept

/-- Reads a time of day. -/
def time? (t : Text) : Option (Text × Text) := do
  let (_, rest) ← digits? 2 23 t
  let (_, rest) ← digits? 2 59 (← skip? ':' rest)
  match rest with
  | ':' :: seconds =>
    let (_, rest) ← digits? 2 60 seconds
    match rest with
    | '.' :: places =>
      let written := places.takeWhile Char.isDigit
      if written.isEmpty then none
      else some (t.take 8 ++ secondFraction written, places.drop written.length)
    | _ => some (t.take 8, rest)
  -- Seconds that are missing are zero.
  | _ => some (t.take 5 ++ ":00".toList, rest)

/-- The difference from universal time, if a text is one or is empty. -/
def offset? (t : Text) : Option Text :=
  match t with
  | [] => some []
  | ['Z'] | ['z'] => some ['Z']
  | sign :: rest => do
    let (hours, rest) ← digits? 2 23 rest
    let (minutes, rest) ← digits? 2 59 (← skip? ':' rest)
    if !rest.isEmpty || (sign != '+' && sign != '-') then none
    -- No difference is written with a plus, whatever its sign.
    else if hours + minutes = 0 then some "+00:00".toList
    else some t

/-- A date, a time, or a date and a time, in full. -/
def moment? (t : Text) : Option Text :=
  match afterDate? t with
  | some [] => some t
  | some (c :: rest) => do
    if c ≠ 'T' ∧ c ≠ 't' ∧ c ≠ ' ' then none
    else
      let (time, rest) ← time? rest
      some (t.take 10 ++ 'T' :: time ++ (← offset? rest))
  | none => do
    let (time, rest) ← time? t
    if rest.isEmpty then some time else none

/-! ## Strings -/

/-- Whether a character may stand in a string or a comment. -/
def isPrintable (c : Char) : Bool := c == '\t' || (0x20 ≤ c.toNat && c.toNat != 0x7F)

/-- The character of a code written in digits of base sixteen. -/
def coded? (digits : Text) : Option Char := do
  let code ← Text.inBase? 16 digits
  if code.isValidChar then some (Char.ofNat code) else none

/-- The character of an escape of one letter. -/
def escaped? (c : Char) : Option Char :=
  [('b', '\x08'), ('t', '\t'), ('n', '\n'), ('f', '\x0c'), ('r', '\r'), ('e', '\x1b'),
    ('\x22', '\x22'), ('\\', '\\')].lookup c

/-- Reads a character after a backslash. -/
def escape? : Text → Option (Char × Text)
  | [] => none
  | c :: rest =>
    let coded (count : Nat) : Option (Char × Text) :=
      if rest.length < count then none
      else (coded? (rest.take count)).map fun d => (d, rest.drop count)
    if c = 'x' then coded 2
    else if c = 'u' then coded 4
    else if c = 'U' then coded 8
    else (escaped? c).map fun d => (d, rest)

/-- Puts a character before what a reader read. -/
def before (c : Char) (read : Option (Text × Text)) : Option (Text × Text) :=
  read.map fun (body, rest) => (c :: body, rest)

/-- Reads the rest of a string of one line.  The length of the text bounds the steps. -/
def basic? : (fuel : Nat) → Text → Option (Text × Text)
  | 0, _ => none
  | _ + 1, [] => none
  | fuel + 1, c :: rest =>
    if c = '\x22' then some ([], rest)
    else if c = '\\' then do
      let (d, rest) ← escape? rest
      before d (basic? fuel rest)
    else if isPrintable c then before c (basic? fuel rest)
    else none

/-- Reads the rest of a string of one line without escapes. -/
def literal? : Text → Option (Text × Text)
  | [] => none
  | c :: rest =>
    if c = '\x27' then some ([], rest)
    else if isPrintable c then before c (literal? rest)
    else none

/-- The end of a string of several lines: three quotes, with at most two before them that belong to
the string. -/
def closing? (quote : Char) (t : Text) : Option (Option (Text × Text)) :=
  let run := (t.takeWhile (· == quote)).length
  if run < 3 then none
  else some (if run ≤ 5 then some (List.replicate (run - 3) quote, t.drop run) else none)

def isLineBlank (c : Char) : Bool := c == ' ' || c == '\t'

def afterNewline? : Text → Option Text
  | '\n' :: rest => some rest
  | '\r' :: '\n' :: rest => some rest
  | _ => none

/-- What is left after blanks and line ends. -/
def skipLines : Text → Text
  | [] => []
  | '\r' :: '\n' :: rest => skipLines rest
  | c :: rest => if isLineBlank c || c == '\n' then skipLines rest else c :: rest

/-- Reads the rest of a string of several lines; `quote` says whether it has escapes. -/
def multiline? (quote : Char) : (fuel : Nat) → Text → Option (Text × Text)
  | 0, _ => none
  | _ + 1, [] => none
  | fuel + 1, c :: rest =>
    match closing? quote (c :: rest) with
    | some ending => ending
    | none =>
      if c = '\\' ∧ quote = '\x22' then
        -- At the end of a line it drops the blanks and line ends behind it.
        if (afterNewline? (rest.dropWhile isLineBlank)).isSome then
          multiline? quote fuel (skipLines rest)
        else do
          let (d, rest) ← escape? rest
          before d (multiline? quote fuel rest)
      else if isPrintable c || (afterNewline? (c :: rest)).isSome then
        before c (multiline? quote fuel rest)
      else none

/-- Reads a string of one line, from its opening quote on. -/
def line? : Text → Option (Text × Text)
  | [] => none
  | c :: rest =>
    if c = '\x22' then basic? (rest.length + 1) rest
    else if c = '\x27' then literal? rest
    else none

/-- Reads a string of any kind, from its opening quote on. -/
def string? (t : Text) : Option (Text × Text) :=
  match t.head? with
  | none => none
  | some quote =>
    if List.isPrefixOf [quote, quote, quote] t then
      -- A line end right after the three quotes does not belong to the string.
      let body := t.drop 3
      multiline? quote (body.length + 1) ((afterNewline? body).getD body)
    else line? t

end Toml
end SqlAudit
