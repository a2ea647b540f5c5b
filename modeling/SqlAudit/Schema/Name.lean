import SqlAudit.Lexical.Segment
import SqlAudit.Pattern.Vocabulary

/-!
Names as they are written in a definition, and lists of them.
-/

namespace SqlAudit
namespace Text

/-- A name without the quotes and brackets of its parts. -/
def unquoted (t : Text) : Text :=
  t.trim.filter fun c => !(c == '\x22' || c == '\x60' || c == '[' || c == ']')

def bareName (t : Text) : String := String.ofList t.unquoted

/-- The column names of a key or an index. -/
def columnNames (t : Text) : List String :=
  -- A name is read at the start of each item: a prefix length or a sort order after it is passed
  -- over, and so is an item that does not start with one.
  ((t.segments ',').filterMap fun item =>
    (Pattern.matchAt? Pattern.name (Cursor.first item)).map fun m => bareName m.text).filter
      (!·.isEmpty)

end Text
end SqlAudit
