import SqlAudit.Failure
import SqlAudit.Text.Utf8

/-!
Inputs as bytes, before they are text.
-/

namespace SqlAudit
namespace Input

/-- The text of an input.  The size is looked at first, then zero bytes; bytes that are no character
are replaced. -/
def text (source : String) (bytes : List UInt8) (limit : Nat) : Except Failure Text :=
  if limit < bytes.length then .error (.tooLarge source bytes.length limit)
  else match bytes.findIdx? (· == 0) with
    | some offset => .error (.binary source offset)
    | none => .ok (Utf8.decode bytes)

end Input
end SqlAudit
