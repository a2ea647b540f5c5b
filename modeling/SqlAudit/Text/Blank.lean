import SqlAudit.Text.Ranges

/-!
Blank characters: the ones that separate words and are trimmed from the ends of a text.
-/

namespace SqlAudit
namespace Text

/-- Blank characters beyond the seven-bit ones (property White_Space). -/
def blankRanges : List (Nat × Nat) :=
  [(0x85, 0x85), (0xA0, 0xA0), (0x1680, 0x1680), (0x2000, 0x200A), (0x2028, 0x2029),
  (0x202F, 0x202F), (0x205F, 0x205F), (0x3000, 0x3000)]

def isBlank (c : Char) : Bool :=
  if isAscii c then c == ' ' || Nat.ble 9 c.toNat && Nat.ble c.toNat 13
  else inRanges blankRanges c.toNat

end Text
end SqlAudit
