import SqlAudit.Toml.Scalar

/-!
Reading a document.  A reader gives what it read and what is left.
-/

namespace SqlAudit
namespace Toml

/-! ## Blanks and comments -/

def skipBlanks (t : Text) : Text := t.dropWhile isLineBlank

/-- Skips blanks, line ends and comments. -/
def skipSpace? : (inComment : Bool) → Text → Option Text
  | _, [] => some []
  | _, '\r' :: '\n' :: rest => skipSpace? false rest
  | inComment, c :: rest =>
    if c = '\n' then skipSpace? false rest
    else if inComment then if isPrintable c then skipSpace? true rest else none
    else if isLineBlank c then skipSpace? false rest
    else if c = '#' then skipSpace? true rest
    else some (c :: rest)

/-- Skips the rest of a line: blanks, and a comment if there is one. -/
def endLine? (t : Text) : Option Text :=
  match skipBlanks t with
  | [] => some []
  | '#' :: rest =>
    let comment := rest.takeWhile (· != '\n')
    let body := if (rest.drop comment.length).isEmpty then comment else Text.dropReturn comment
    if body.all isPrintable then some (rest.drop (comment.length + 1)) else none
  | t => afterNewline? t

/-! ## Keys -/

def isKeyChar (c : Char) : Bool := c.isAlphanum || c == '_' || c == '-'

def key? (t : Text) : Option (String × Text) :=
  match line? t with
  | some (name, rest) => some (String.ofList name, rest)
  | none =>
    let name := t.takeWhile isKeyChar
    if name.isEmpty then none else some (String.ofList name, t.drop name.length)

/-- Levels of nesting that are read. -/
def deepest : Nat := 80

/-- Reads keys with dots between them, `room` at most. -/
def keysUpTo? : (room : Nat) → Text → Option (KeyPath × Text)
  | 0, _ => none
  | room + 1, t => do
    let (name, t) ← key? (skipBlanks t)
    match skipBlanks t with
    | '.' :: rest =>
      let (path, rest) ← keysUpTo? room rest
      some (⟨name :: path.way, path.last⟩, rest)
    | t => some (⟨[], name⟩, t)

def keyPath? (t : Text) : Option (KeyPath × Text) := keysUpTo? deepest t

/-! ## Values -/

/-- Whether a character ends a value without quotes. -/
def endsScalar (c : Char) : Bool :=
  isLineBlank c || c == '\n' || c == '\r' || c == ',' || c == ']' || c == '\x7d' || c == '#'

def scalar? (t : Text) : Option Toml :=
  if t = "true".toList then some (.truth true)
  else if t = "false".toList then some (.truth false)
  else
    integer? t <|> real? t <|> (moment? t).map fun written => .moment (String.ofList written)

/-- Reads a value without quotes. -/
def readScalar? (t : Text) : Option (Toml × Text) :=
  let written := t.takeWhile (!endsScalar ·)
  let rest := t.drop written.length
  match rest with
  -- Between a date and a time there may be a space.
  | ' ' :: d :: _ =>
    if d.isDigit ∧ afterDate? written = some [] then
      let full := written ++ ' ' :: (rest.drop 1).takeWhile (!endsScalar ·)
      (scalar? full).map fun value => (value, t.drop full.length)
    else (scalar? written).map fun value => (value, rest)
  | _ => (scalar? written).map fun value => (value, rest)

mutual

/-- Reads a value, with `room` levels of nesting left.  Each step reads a character, so the length of
the text bounds the steps. -/
def value? : (fuel room : Nat) → Text → Option (Toml × Text)
  | 0, _, _ => none
  | _ + 1, _, [] => none
  | fuel + 1, room, c :: rest =>
    if c = '[' then
      if room = 0 then none
      else (items? fuel (room - 1) rest).map fun (items, rest) => (.list items, rest)
    else if c = '\x7b' then
      if room = 0 then none
      else do
        let (fields, rest) ← fields? fuel (room - 1) rest
        some (← inlineTable? fields, rest)
    else if c = '\x22' ∨ c = '\x27' then
      (string? (c :: rest)).map fun (body, rest) => (.text (String.ofList body), rest)
    else readScalar? (c :: rest)

/-- Reads the rest of a list. -/
def items? : (fuel room : Nat) → Text → Option (List Toml × Text)
  | 0, _, _ => none
  | fuel + 1, room, t => do
    match ← skipSpace? false t with
    | ']' :: rest => some ([], rest)
    | t =>
      let (item, t) ← value? fuel room t
      match ← skipSpace? false t with
      | ',' :: rest =>
        let (more, rest) ← items? fuel room rest
        some (item :: more, rest)
      | ']' :: rest => some ([item], rest)
      | _ => none

/-- Reads the rest of an inline table, in which lines may end between any two parts but those of a
key. -/
def fields? : (fuel room : Nat) → Text → Option (List (KeyPath × Toml) × Text)
  | 0, _, _ => none
  | fuel + 1, room, t => do
    let t ← skipSpace? false t
    if t.head? = some '\x7d' then some ([], t.drop 1)
    else
      let (path, t) ← keyPath? t
      let t ← skip? '=' (← skipSpace? false t)
      let (value, t) ← value? fuel room (← skipSpace? false t)
      let t ← skipSpace? false t
      if t.head? = some ',' then
        let (more, t) ← fields? fuel room (t.drop 1)
        some ((path, value) :: more, t)
      else if t.head? = some '\x7d' then some ([(path, value)], t.drop 1)
      else none

end

/-! ## Documents -/

/-- Reads the line of a header after its opening brackets. -/
def header? (close : Text) (t : Text) : Option (KeyPath × Text) := do
  let (path, t) ← keyPath? t
  if close.isPrefixOf t then some (path, t.drop close.length) else none

/-- Reads a line that is not empty. -/
def item? (t : Text) : Option (Item × Text) :=
  match t with
  | '[' :: '[' :: rest => (header? "]]".toList rest).map fun (path, t) => (.itemHeader path, t)
  | '[' :: rest => (header? "]".toList rest).map fun (path, t) => (.header path, t)
  | _ => do
    let (path, t) ← keyPath? t
    let t ← skip? '=' t
    let (value, t) ← value? (2 * t.length + 2) deepest (skipBlanks t)
    some (.entry path value, t)

/-- Reads all lines.  Each one reads a character at least. -/
def items : (fuel : Nat) → Text → Option (List Item)
  | 0, _ => none
  | fuel + 1, t => do
    let t ← skipSpace? false t
    if t.isEmpty then some []
    else
      let (item, t) ← item? t
      let more ← items fuel (← endLine? t)
      some (item :: more)

def parse? (t : Text) : Option Entries := do
  -- A byte order mark at the front is passed over.
  let body := match t with
    | c :: rest => if c = '\uFEFF' then rest else t
    | [] => []
  ofItems? (← items (body.length + 1) body)

end Toml
end SqlAudit
