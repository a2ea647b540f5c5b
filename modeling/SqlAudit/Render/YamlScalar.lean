import SqlAudit.Decimal.Basic
import SqlAudit.Power
import SqlAudit.Text.Numeral

/-!
Text as a YAML scalar: plain where a reader takes it for the same text again, else in the simplest
quotes that can hold it.  Text of several lines is written line by line.
-/

namespace SqlAudit
namespace YamlScalar

/-! ## Texts that read as something else -/

def nullWords : List String := ["", "null", "Null", "NULL", "~"]

def truthWords : List String := ["true", "True", "TRUE", "false", "False", "FALSE"]

def specialNumbers : List String :=
  [".inf", ".Inf", ".INF", "+.inf", "+.Inf", "+.INF", "-.inf", "-.Inf", "-.INF", ".nan", ".NaN", ".NAN"]

/-- Bases with the letter that stands for them after a zero. -/
def bases : List (Char × Nat) := [('x', 16), ('o', 8), ('b', 2)]

/-- Whether a text is a number in another base, of at most 128 bits with its sign. -/
def isBased (t : Text) : Bool :=
  let (body, last) := match t with
    | '-' :: rest => (rest, twoTo 127)
    | '+' :: rest => (rest, twoTo 128 - 1)
    | _ => (t, twoTo 128 - 1)
  match body with
  | '0' :: letter :: digits =>
    (bases.lookup letter).any fun base => (Text.inBase? base digits).any (· ≤ last)
  | _ => false

def exponent? : Text → Option Int
  | [] => some 0
  | c :: rest =>
    if c = 'e' ∨ c = 'E' then
      match rest with
      | '+' :: digits => (Text.decimal? digits).map Int.ofNat
      | '-' :: digits => (Text.decimal? digits).map fun n => -Int.ofNat n
      | digits => (Text.decimal? digits).map Int.ofNat
    else none

def withoutSign : Text → Text
  | '+' :: rest | '-' :: rest => rest
  | t => t

/-- A number with an optional fraction and exponent. -/
def decimal? (t : Text) : Option Decimal := do
  let body := withoutSign t
  let whole := body.takeWhile Char.isDigit
  let (places, rest) := match body.drop whole.length with
    | '.' :: rest => (rest.takeWhile Char.isDigit, rest.dropWhile Char.isDigit)
    | rest => ([], rest)
  let digits ← Text.decimal? (whole ++ places)
  let exponent ← exponent? rest
  some ⟨digits, exponent - places.length⟩

/-- Whether a text is digits behind a zero: some readers take it for a number however long it is. -/
def isPadded (t : Text) : Bool :=
  match withoutSign t with
  | '0' :: c :: rest => (c :: rest).all Char.isDigit
  | _ => false

/-- Whether a reader takes a plain text for nothing, a truth value or a number. -/
def readsAsOther (t : Text) : Bool :=
  (nullWords ++ truthWords ++ specialNumbers).contains (String.ofList t) ||
  isBased t || isPadded t || (decimal? t).any Decimal.isFinite

/-! ## Which styles can hold a text -/

def isBreak (c : Char) : Bool :=
  c == '\n' || c == '\r' || c == '\u0085' || c == '\u2028' || c == '\u2029'

def isSpace (c : Char) : Bool := c == ' ' || c == '\t' || isBreak c

/-- Whether a character may stand outside double quotes. -/
def isPrintable (c : Char) : Bool :=
  c == '\n' || (0x20 ≤ c.toNat && c.toNat ≤ 0x7E) ||
  (0xA0 ≤ c.toNat && c.toNat != 0xFEFF && c.toNat != 0xFFFE && c.toNat != 0xFFFF)

def anyPair (test : Char → Char → Bool) (t : Text) : Bool :=
  (t.zip t.tail).any fun pair => test pair.1 pair.2

/-- Characters that mean something at the start of a scalar. -/
def leadSigns : List Char :=
  ['#', ',', '[', ']', '\x7b', '\x7d', '&', '*', '!', '|', '>', '\x27', '\x22', '%', '@', '\x60']

/-- Whether something in a text would end a plain scalar or start another construct. -/
def hasIndicator (t : Text) : Bool :=
  "---".toList.isPrefixOf t || "...".toList.isPrefixOf t ||
  t.head?.any leadSigns.contains ||
  (t.head?.any (fun c => c == '?' || c == '-') && t.tail.head?.all isSpace) ||
  t.getLast? == some ':' ||
  anyPair (fun a b => a == ':' && isSpace b) t ||
  anyPair (fun a b => isSpace a && b == '#') t

/-- Whether a text can be held without double quotes at all. -/
def isSimple (t : Text) : Bool :=
  t.all isPrintable && !anyPair (fun a b => a == ' ' && isBreak b) t

def allowsSingle (t : Text) : Bool :=
  isSimple t && !anyPair (fun a b => isBreak a && b == ' ') t

def allowsPlain (t : Text) : Bool :=
  isSimple t && !t.any isBreak && !hasIndicator t &&
  t.head? != some ' ' && t.getLast? != some ' '

def allowsLines (t : Text) : Bool := isSimple t && t.getLast? != some ' '

inductive Style where
  | plain
  | single
  | double
  | lines
  deriving DecidableEq, Repr

def style (t : Text) : Style :=
  if t.any (· == '\n') then if allowsLines t then .lines else .double
  else if allowsPlain t && !readsAsOther t then .plain
  else if allowsSingle t then .single
  else .double

/-! ## Writing -/

def blanks (indent : Nat) : Text := List.replicate indent ' '

/-- Writes a text so that every line after the first is indented; `afterBreak` says whether a line
has just started. -/
def indented (indent : Nat) : (afterBreak : Bool) → Text → Text
  | _, [] => []
  | afterBreak, c :: rest =>
    if isBreak c then c :: indented indent true rest
    else if afterBreak then blanks indent ++ c :: indented indent false rest
    else c :: indented indent false rest

def single (indent : Nat) (t : Text) : Text :=
  let body := indented indent false t
  let tail := if t.getLast?.any isBreak then blanks indent else []
  '\x27' :: body.flatMap (fun c => if c = '\x27' then [c, c] else [c]) ++ tail ++ ['\x27']

/-- A number in `count` digits of base sixteen. -/
def hex (count n : Nat) : Text :=
  let digits := (Nat.toDigits 16 n).map Char.toUpper
  List.replicate (count - digits.length) '0' ++ digits

/-- Letters that stand for characters after a backslash. -/
def letterEscapes : List (Char × Char) :=
  [('\x00', '0'), ('\x07', 'a'), ('\x08', 'b'), ('\t', 't'), ('\n', 'n'), ('\x0b', 'v'),
   ('\x0c', 'f'), ('\r', 'r'), ('\x1b', 'e'), ('\x22', '\x22'), ('\\', '\\'), ('\u0085', 'N'),
   ('\u2028', 'L'), ('\u2029', 'P')]

/-- A character in double quotes. -/
def doubleChar (c : Char) : Text :=
  match letterEscapes.lookup c with
  | some letter => ['\\', letter]
  | none =>
    if isPrintable c then [c]
    else if c.toNat ≤ 0xFF then '\\' :: 'x' :: hex 2 c.toNat
    else if c.toNat ≤ 0xFFFF then '\\' :: 'u' :: hex 4 c.toNat
    else '\\' :: 'U' :: hex 8 c.toNat

def double (t : Text) : Text := '\x22' :: t.flatMap doubleChar ++ ['\x22']

/-- What the header of several lines says: their indentation if they start with a blank, and what
becomes of the line ends after them. -/
def lineHints (t : Text) : Text :=
  let indentation := if t.head?.any (fun c => c == ' ' || isBreak c) then ['2'] else []
  let ends := (t.reverse.takeWhile isBreak).length
  indentation ++
    (if ends = 0 then ['-'] else if ends = 1 ∧ t.length ≠ 1 then [] else ['+'])

/-- A text of several lines, below its header. -/
def lines (indent : Nat) (t : Text) : Text :=
  '|' :: lineHints t ++ '\n' :: indented indent true t ++
    if t.getLast?.any isBreak then [] else ['\n']

/-- A scalar with the line end after it, where lines are indented by `indent`. -/
def write (indent : Nat) (t : Text) : Text :=
  match style t with
  | .plain => t ++ ['\n']
  | .single => single indent t ++ ['\n']
  | .double => double t ++ ['\n']
  | .lines => lines indent t

end YamlScalar
end SqlAudit
