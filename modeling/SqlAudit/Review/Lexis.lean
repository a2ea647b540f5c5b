import SqlAudit.Dialect
import SqlAudit.Text.Letter
import SqlAudit.Text.Numeral
import SqlAudit.Text.Numeric

/-!
The first token of a statement, as strict reviews show it.  Dialects differ in what makes a word, in
the quotes that hold names, in their literals and in their operators.
-/

namespace SqlAudit

/-- A letter before quotes that makes a literal of them. -/
structure LiteralMark where
  letter : Char
  quotes : List Char
  /-- What a backslash and the character after it stand for; without it a backslash is a character
  like any other. -/
  escape? : Option (Char → Text) := none
  /-- Whether three quotes open and close it as well. -/
  tripled : Bool := false

/-- How a dialect cuts statements into tokens. -/
structure Lexis where
  startsWord : Char → Bool
  continuesWord : Char → Bool
  /-- Signs that start a word together with the character after them. -/
  wordSigns : List Char := []
  /-- What opens a delimited name. -/
  delimiters : List Char
  marks : List LiteralMark
  unicodeMark : Bool := false
  /-- What a backslash in a string and the character after it stand for. -/
  escape? : Option (Char → Text) := none
  /-- Whether an underscore may stand between digits. -/
  groupsDigits : Bool := false
  /-- Whether a word may start with digits. -/
  digitWords : Bool := false
  /-- Whether a dollar sign always starts a parameter, and never a string. -/
  dollarWords : Bool := false
  /-- Whether a question mark starts a parameter. -/
  questionWords : Bool := true
  /-- Signs of several characters, besides those of all dialects. -/
  signs : List String := []
  /-- The characters that operators can be continued with. -/
  operatorSigns : List Char := []

namespace Lexis

/-! ## Quotes -/

/-- Letters with the characters that they stand for after a backslash. -/
def letterEscapes : List (Char × Char) :=
  [('b', '\x08'), ('f', '\x0c'), ('n', '\n'), ('r', '\r'), ('t', '\t')]

/-- Further such letters, of strings without a mark. -/
def stringEscapes : List (Char × Char) := [('0', '\x00'), ('a', '\x07'), ('Z', '\x1a')]

/-- A letter stands for its character, and anything else for itself. -/
def escape (c : Char) : Text := [((letterEscapes ++ stringEscapes).lookup c).getD c]

/-- The same for strings that are marked as escaped. -/
def markedEscape (c : Char) : Text := [(letterEscapes.lookup c).getD c]

/-- Signs that patterns of texts use keep their backslash. -/
def patternEscape (c : Char) : Text := if c = '%' ∨ c = '_' then ['\\', c] else escape c

/-- What stands before a closing quote; a doubled quote stands for one. -/
def quotedBody (quote : Char) (escape? : Option (Char → Text)) : Text → Text
  | [] => []
  | [c] => if c = quote then [] else [c]
  | c :: d :: rest =>
    if c = quote then if d = quote then c :: quotedBody quote escape? rest else []
    else match escape? with
      | some escape =>
        if c = '\\' then escape d ++ quotedBody quote escape? rest
        else c :: quotedBody quote escape? (d :: rest)
      | none => c :: quotedBody quote escape? (d :: rest)

/-- A quoted text with its quotes, from the text after the opening one. -/
def quoted (quote : Char) (escape? : Option (Char → Text)) (t : Text) : Text :=
  quote :: quotedBody quote escape? t ++ [quote]

/-- A literal from the text after its letter, which starts with a quote. -/
def literal (mark : LiteralMark) (quote : Char) (t : Text) : Text :=
  let three := [quote, quote, quote]
  if mark.tripled && three.isPrefixOf (quote :: t) then
    three ++ ((Text.splitOnce? three (t.drop 2)).elim (t.drop 2) (·.1)) ++ three
  else quoted quote mark.escape? t

/-- A marked literal, if one starts here. -/
def markedLiteral? (l : Lexis) (c : Char) : Text → Option Text
  | [] => none
  | quote :: rest => do
    let mark ← l.marks.find? fun mark =>
      mark.letter == c.toUpper && mark.quotes.contains quote
    some (mark.letter :: literal mark quote rest)

def closing (opening : Char) : Char := if opening = '[' then ']' else opening

/-! ## Numbers -/

def isHexDigit (c : Char) : Bool := (Text.baseDigit? 16 c).isSome

/-- The digits at the front of a text, with underscores between them if the dialect knows them. -/
def digits (l : Lexis) (isDigit : Char → Bool) : Text → Text
  | [] => []
  | c :: rest =>
    if isDigit c || (l.groupsDigits && c == '_' && rest.head?.any isHexDigit) then
      c :: l.digits isDigit rest
    else []

def startsExponent (t : Text) : Bool := t.head?.any fun c => c == 'e' || c == 'E'

def exponent : Text → Text
  | [] => []
  | c :: rest =>
    let sign := rest.take 1 |>.filter fun d => d == '+' || d == '-'
    let digits := (rest.drop sign.length).takeWhile Char.isDigit
    if startsExponent (c :: rest) && !digits.isEmpty then c :: sign ++ digits else []

/-- What belongs to a number after its exponent: the rest of a word that starts with digits, and the
mark of a long number. -/
def numberTail (l : Lexis) (mayBeWord : Bool) (t : Text) : Text :=
  let word := if l.digitWords && mayBeWord then t.takeWhile l.continuesWord else []
  word ++ if (t.drop word.length).head? = some 'L' then ['L'] else []

/-- A number in decimal digits, or a point that no digits follow. -/
def decimal (l : Lexis) (t : Text) : Text :=
  let whole := l.digits Char.isDigit t
  let point := (t.drop whole.length).take 1 |>.filter (· == '.')
  let places :=
    if point.isEmpty then [] else l.digits Char.isDigit (t.drop (whole.length + 1))
  let number := whole ++ point ++ places
  let rest := t.drop number.length
  let power := exponent rest
  if number = ['.'] then number
  else number ++ power ++ l.numberTail (!startsExponent rest) (rest.drop power.length)

/-- A number.  One in base sixteen is shown as the literal of its digits. -/
def number (l : Lexis) (t : Text) : Text :=
  let rest := t.drop (l.digits Char.isDigit t).length
  if l.digits Char.isDigit t = ['0'] ∧ rest.head? = some 'x' then
    'X' :: '\x27' :: l.digits isHexDigit (rest.drop 1) ++ ['\x27']
  else l.decimal t

/-! ## Signs -/

/-- Signs that operators are not continued after. -/
def closedSigns : List String :=
  ["!~~*", "!~~", "!~*", "!~", "!!", "!=", "=>", "==", "->>", "::", ":=", "^@", "@>", "@?", "@@",
   "//", "@-@", "?||", "?-|", "?|", "?&", "?-", "?#", "&<|", "&>"]

/-- Signs of all dialects, each before those that it starts with. -/
def sharedSigns : List String :=
  ["!~~*", "!~~", "!~*", "!~", "!!", "!=", "=>", "==", "->>", "->", "::", ":=", "^@", "@>", "@?",
   "@@", "||/", "||", "|/", "<=>", "<=", "<>", "<<", "<@", ">=", ">>", "&&", "~~*", "~~", "~*",
   "#>>", "#>", "#-"]

def geometrySigns : List String :=
  ["@-@", "?||", "?-|", "?|", "?&", "?-", "?#", "&<|", "&<", "&>", "|&>", "|>>", "<<|", "<->", "<^",
   ">^", "~=", "##"]

/-- Signs of one character that operators are continued after. -/
def openSigns : List Char := ['-', '%', '|', '<', '>', '&', '~', '#']

/-- A sign, with what an operator is continued with.  Unequal is shown in one way. -/
def sign (l : Lexis) (c : Char) (rest : Text) : Text :=
  let found := (l.signs ++ sharedSigns).find? fun s => s.toList.isPrefixOf (c :: rest)
  match found with
  | some s =>
    let more := (rest.drop (s.length - 1)).takeWhile l.operatorSigns.contains
    if closedSigns.contains s then if s = "!=" then "<>".toList else s.toList
    else s.toList ++ more
  | none => c :: if openSigns.contains c then rest.takeWhile l.operatorSigns.contains else []

/-! ## Words and parameters -/

/-- A word after a sign that starts words.  The character after the sign belongs to the word whatever
it is, unless it makes another sign or opens quotes. -/
def signedWord? (l : Lexis) (c : Char) (rest : Text) : Option Text :=
  let word (start : Text) : Text → Text := fun t => start ++ t.takeWhile l.continuesWord
  if !l.wordSigns.contains c then none
  else match rest with
    | [] | ' ' :: _ | '>' :: _ => none
    | d :: more =>
      if c = '#' then if d = '-' then none else some (word [c, d] more)
      else if d = '@' then
        match more with
        | [] | ' ' :: _ => none
        | e :: more => some (word [c, d, e] more)
      else if d = '?' ∨ d = '\x27' ∨ d = '\x22' ∨ d = '\x60' then none
      else some (word [c, d] more)

def continuesParameter (c : Char) : Bool := Text.isLetter c || Text.isNumeric c || c == '_'

/-- A parameter or a string between dollar signs, from the text after the first one. -/
def dollar (l : Lexis) (t : Text) : Text :=
  if l.dollarWords then '$' :: t.takeWhile fun c => continuesParameter c || c == '$'
  else
    let tag := t.takeWhile continuesParameter
    match t.drop tag.length with
    | '$' :: rest =>
      let quote := '$' :: tag ++ ['$']
      quote ++ ((Text.splitOnce? quote rest).elim rest (·.1)) ++ quote
    | _ => '$' :: tag

/-! ## Tokens -/

/-- The first token of a statement. -/
def firstToken (l : Lexis) : Text → Text
  | [] => "EOF".toList
  | c :: rest =>
    match l.markedLiteral? c rest with
    | some token => token
    | none =>
      if l.unicodeMark && c.toUpper == 'U' && List.isPrefixOf ['&', '\x27'] rest then
        'U' :: '&' :: quoted '\x27' none (rest.drop 2)
      else if l.delimiters.contains c then
        c :: quotedBody (closing c) none rest ++ [closing c]
      else if c = '\x27' ∨ c = '\x22' then quoted c l.escape? rest
      else if c.isDigit || c == '.' then l.number (c :: rest)
      else match l.signedWord? c rest with
        | some token => token
        | none =>
          if l.startsWord c then c :: rest.takeWhile l.continuesWord
          else if c = '$' then l.dollar rest
          else if l.questionWords && c == '?' then c :: rest.takeWhile Text.isNumeric
          else l.sign c rest

/-! ## Dialects -/

def isLetter (c : Char) : Bool := Text.isLetter c || c == '_'

/-- The literals of all dialects: those of national characters, with the escapes of strings, and
those of bytes, which always have some. -/
def sharedMarks (escape? : Option (Char → Text)) : List LiteralMark :=
  [{ letter := 'N', quotes := ['\x27'], escape? },
   { letter := 'X', quotes := ['\x27'], escape? := some (escape?.getD escape) }]

def byteMark : LiteralMark := { letter := 'B', quotes := ['\x27', '\x22'] }

def rawMark : LiteralMark := { letter := 'R', quotes := ['\x27', '\x22'], tripled := true }

def escapedMark : LiteralMark :=
  { letter := 'E', quotes := ['\x27'], escape? := some markedEscape }

def generic : Lexis where
  startsWord := isLetter
  continuesWord c := isLetter c || c.isDigit || c == '@' || c == '$' || c == '#'
  wordSigns := ['#', '@']
  delimiters := ['\x22', '\x60']
  marks := [byteMark, rawMark, escapedMark] ++ sharedMarks none
  unicodeMark := true
  signs := ["//"]

def mysql : Lexis where
  startsWord c := isLetter c || c == '$' || !Text.isAscii c
  continuesWord c := isLetter c || c.isDigit || c == '$' || c == '@' || !Text.isAscii c
  wordSigns := ['@']
  delimiters := ['\x60']
  marks := byteMark :: sharedMarks (some patternEscape)
  escape? := some patternEscape
  digitWords := true

def postgresql : Lexis where
  startsWord c := isLetter c || !Text.isAscii c
  continuesWord c := isLetter c || c.isDigit || c == '$' || !Text.isAscii c
  delimiters := ['\x22']
  marks := [byteMark, escapedMark] ++ sharedMarks none
  unicodeMark := true
  groupsDigits := true
  questionWords := false
  signs := geometrySigns
  operatorSigns := "+-*/<>=~!@#%^&|`?".toList

/-- Whether a character beyond the seven-bit ones can stand in a word of SQLite. -/
def isWide (c : Char) : Bool := 0x7F ≤ c.toNat && c.toNat ≤ 0xFFFF

def sqlite : Lexis where
  startsWord c := isLetter c || isWide c
  continuesWord c := isLetter c || isWide c || c.isDigit
  delimiters := ['\x60', '\x22', '[']
  marks := sharedMarks none
  dollarWords := true

def sqlserver : Lexis where
  startsWord := isLetter
  continuesWord c := isLetter c || c.isDigit || c == '@' || c == '$' || c == '#'
  wordSigns := ['#', '@']
  delimiters := ['\x22', '[']
  marks := sharedMarks none

/-- The tokens of a dialect. -/
def ofDialect : Dialect → Lexis
  | .generic | .oracle => generic
  | .mysql => mysql
  | .postgresql => postgresql
  | .sqlite => sqlite
  | .sqlserver => sqlserver

end Lexis
end SqlAudit
