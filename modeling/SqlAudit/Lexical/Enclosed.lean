import SqlAudit.Lexical.Quote

/-!
The text that a pair of parentheses encloses.
-/

namespace SqlAudit
namespace Text

/-- Marked characters up to the parenthesis that closes the outermost level, where `inner` more
levels are open. -/
def upToClose : (inner : Nat) → List Mark → Option Text
  | _, [] => none
  | inner, m :: rest =>
    if m.isCode '(' then (upToClose (inner + 1) rest).map (m.char :: ·)
    else if m.isCode ')' then
      match inner with
      | 0 => some []
      | below + 1 => (upToClose below rest).map (m.char :: ·)
    else (upToClose inner rest).map (m.char :: ·)

/-- What stands between an opening parenthesis, which is already read, and the one that closes it.
Literals are read by the standard convention first, and with backslash escapes if that fails. -/
def enclosed? (t : Text) : Option Text :=
  (upToClose 0 (t.marks .standard)).or (upToClose 0 (t.marks .backslash))

/-- The byte offsets of the parenthesis at `start` and of the one that closes it. -/
def enclosure? (t : Text) (start : Nat) : Option (Nat × Nat) :=
  match t.atByte? start with
  | some ('(' :: rest) => (enclosed? rest).map fun inner => (start, start + 1 + inner.size)
  | _ => none

end Text
end SqlAudit
