import SqlAudit.Render.Document

/-!
JSON with one part to a line and two spaces to a level.  Text keeps every character that need not be
escaped.
-/

namespace SqlAudit
namespace Document

def hexDigit (n : Nat) : Char := Nat.digitChar (n % 16)

/-- A character inside quotes. -/
def jsonChar (c : Char) : Text :=
  if c = '\x22' then ['\\', '\x22']
  else if c = '\\' then ['\\', '\\']
  else if c = '\n' then ['\\', 'n']
  else if c = '\r' then ['\\', 'r']
  else if c = '\t' then ['\\', 't']
  else if c = '\x08' then ['\\', 'b']
  else if c = '\x0c' then ['\\', 'f']
  else if c.toNat < 0x20 then ['\\', 'u', '0', '0', hexDigit (c.toNat / 16), hexDigit c.toNat]
  else [c]

def jsonText (s : String) : Text := '\x22' :: s.toList.flatMap jsonChar ++ ['\x22']

def newLine (level : Nat) : Text := '\n' :: List.replicate (2 * level) ' '

/-- Parts between brackets, each on a line of its own. -/
def bracketed (left right : Char) (level : Nat) (parts : List Text) : Text :=
  if parts.isEmpty then [left, right]
  else left :: newLine (level + 1) ++ (',' :: newLine (level + 1)).intercalate parts ++
    newLine level ++ [right]

mutual

def jsonAt (level : Nat) : Document → Text
  | .null => "null".toList
  | .truth value => if value then "true".toList else "false".toList
  | .number written => written
  | .text value => jsonText value
  | .list items => bracketed '[' ']' level (jsonItems (level + 1) items)
  | .record fields => bracketed '\x7b' '\x7d' level (jsonFields (level + 1) fields)

def jsonItems (level : Nat) : List Document → List Text
  | [] => []
  | item :: rest => jsonAt level item :: jsonItems level rest

def jsonFields (level : Nat) : List (String × Document) → List Text
  | [] => []
  | (name, value) :: rest =>
    (jsonText name ++ [':', ' '] ++ jsonAt level value) :: jsonFields level rest

end

def json (d : Document) : Text := jsonAt 0 d

end Document
end SqlAudit
