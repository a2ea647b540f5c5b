/-!
Character properties are given by closed ranges of code points.
-/

namespace SqlAudit
namespace Text

/-- Whether a code point lies in one of the ranges.  The tables hold code points beyond the
seven-bit ones only: those are decided without a table, so that a fact about them never needs one. -/
def inRanges (ranges : List (Nat × Nat)) (code : Nat) : Bool :=
  ranges.any fun range => Nat.ble range.1 code && Nat.ble code range.2

/-- Whether a character has seven bits. -/
def isAscii (c : Char) : Bool := Nat.blt c.toNat 0x80

end Text
end SqlAudit
