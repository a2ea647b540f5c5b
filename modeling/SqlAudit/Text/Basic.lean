import SqlAudit.Text.Blank

/-!
Texts as lists of characters.  Offsets count the bytes of the UTF-8 form, because that is how a
position in a source file is counted; every function here that takes or gives one says so.
-/

namespace SqlAudit

/-- A text is the list of its characters, so that the scanners are recursions on the text itself. -/
abbrev Text := List Char

namespace Text

/-- Bytes of the UTF-8 form. -/
def size : Text → Nat
  | [] => 0
  | c :: rest => c.utf8Size + size rest

/-- The text from a byte offset on, or nothing when the offset falls inside a character or past
the end. -/
def atByte? : Text → Nat → Option Text
  | t, 0 => some t
  | [], _ + 1 => none
  | c :: rest, n + 1 => if n + 1 < c.utf8Size then none else atByte? rest (n + 1 - c.utf8Size)

/-- The text from a byte offset on; empty when there is no such position. -/
def dropBytes (t : Text) (offset : Nat) : Text := (t.atByte? offset).getD []

/-- Spaces in place of a character, one for each of its bytes, so that offsets stay the same. -/
def blanks (c : Char) : Text := List.replicate c.utf8Size ' '

/-! ## Trimming and words -/

def trimStart (t : Text) : Text := t.dropWhile isBlank

def trimEnd (t : Text) : Text := (t.reverse.dropWhile isBlank).reverse

def trim (t : Text) : Text := trimEnd (trimStart t)

def extend (c : Char) : List Text → List Text
  | [] => [[c]]
  | piece :: more => (c :: piece) :: more

/-- The pieces between the characters that satisfy `stop`, empty pieces included. -/
def pieces (stop : Char → Bool) : Text → List Text
  | [] => [[]]
  | c :: rest => if stop c then [] :: pieces stop rest else extend c (pieces stop rest)

/-- The maximal runs of characters that are not blank. -/
def words (t : Text) : List Text := (pieces isBlank t).filter (!·.isEmpty)

/-- The words of a text with one space between neighbours. -/
def squeeze (t : Text) : Text := [' '].intercalate t.words

/-! ## Lines -/

/-- Drops one carriage return from the end. -/
def dropReturn (t : Text) : Text := if t.getLast? = some '\r' then t.dropLast else t

/-- The lines of a text.  A newline ends a line, together with one carriage return before it; text
after the last newline is a line of its own unless it is empty. -/
def lines (t : Text) : List Text :=
  let all := pieces (· == '\n') t
  all.dropLast.map dropReturn ++ all.getLast?.toList.filter (!·.isEmpty)

/-- The line with a number counted from one; empty when there is none. -/
def line (t : Text) (number : Nat) : Text := t.lines.getD (number - 1) []

/-- The number of the line that holds the byte at `offset`. -/
def lineAt : Text → Nat → Nat
  | [], _ => 1
  | c :: rest, offset =>
    if offset < c.utf8Size then 1
    else (if c == '\n' then 1 else 0) + lineAt rest (offset - c.utf8Size)

/-! ## Searching and comparing -/

/-- What stands before and after the first occurrence of `needle`. -/
def splitOnce? (needle : Text) : Text → Option (Text × Text)
  | [] => if needle.isEmpty then some ([], []) else none
  | c :: rest =>
    if needle.isPrefixOf (c :: rest) then some ([], (c :: rest).drop needle.length)
    else (splitOnce? needle rest).map fun found => (c :: found.1, found.2)

def contains (t needle : Text) : Bool := (splitOnce? needle t).isSome

/-- Every occurrence of `needle`, from the left and without overlap, replaced by `value`. -/
def replaceFrom (needle value : Text) : Nat → Text → Text
  | 0, t => t
  | fuel + 1, t =>
    match splitOnce? needle t with
    | some (front, rest) => front ++ value ++ replaceFrom needle value fuel rest
    | none => t

def replace (t needle value : Text) : Text :=
  -- Each occurrence has a character at least, so there are no more of them than characters.
  if needle.isEmpty then t else replaceFrom needle value t.length t

/-- Equality up to the case of the letters `a` to `z`. -/
def sameLetters (a b : Text) : Bool := a.map Char.toLower == b.map Char.toLower

end Text

/-- Equality of names up to the case of the letters `a` to `z`. -/
def sameName (a b : String) : Bool := Text.sameLetters a.toList b.toList

end SqlAudit
