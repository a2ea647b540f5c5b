import SqlAudit.Render.Document
import SqlAudit.Render.YamlScalar

/-!
YAML in block style: the items of a list stand under the name of the list without indentation.
-/

namespace SqlAudit
namespace Document

/-- A document that fits after a name or a dash, with the line end after it. -/
def yamlInline? (indent : Nat) : Document → Option Text
  | .null => some "null\n".toList
  | .truth value => some (if value then "true\n".toList else "false\n".toList)
  | .number written => some (written ++ ['\n'])
  | .text value => some (YamlScalar.write indent value.toList)
  | .list [] => some "[]\n".toList
  | .record [] => some "\x7b\x7d\n".toList
  | _ => none

mutual

/-- A list or record as lines at an indentation. -/
def yamlBlock (indent : Nat) : Document → Text
  | .list items => yamlItems indent items
  | .record fields => yamlFields indent fields
  | _ => []

def yamlItems (indent : Nat) : List Document → Text
  | [] => []
  | item :: rest =>
    YamlScalar.blanks indent ++ ['-', ' '] ++
    (match yamlInline? (indent + 2) item with
      | some written => written
      -- The dash takes the place of the first two blanks.
      | none => (yamlBlock (indent + 2) item).drop (indent + 2)) ++
    yamlItems indent rest

def yamlFields (indent : Nat) : List (String × Document) → Text
  | [] => []
  | (name, value) :: rest =>
    YamlScalar.blanks indent ++ name.toList ++ [':'] ++
    (match yamlInline? (indent + 2) value with
      | some written => ' ' :: written
      -- A list below a name stays at the indentation of the name.
      | none => '\n' :: yamlBlock (match value with
          | .list _ => indent
          | _ => indent + 2) value) ++
    yamlFields indent rest

end

def yaml (d : Document) : Text := (yamlInline? 0 d).getD (yamlBlock 0 d)

end Document
end SqlAudit
