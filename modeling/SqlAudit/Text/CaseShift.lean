/-!
Case mappings of single characters, as runs of code points that move by one distance.
-/

namespace SqlAudit
namespace Text

/-- Every `step`-th code point from `first` to `last` maps to the one `shift` further on. -/
structure CaseShift where
  first : Nat
  last : Nat
  step : Nat
  shift : Int

namespace CaseShift

/-- Whether the run moves this code point. -/
def moves (run : CaseShift) (code : Nat) : Bool :=
  Nat.ble run.first code && Nat.ble code run.last && (code - run.first) % run.step == 0

/-- The code point that the first run with `code` maps it to, or `code` itself. -/
def apply (runs : List CaseShift) (code : Nat) : Nat :=
  match runs.find? (·.moves code) with
  | some run => (Int.ofNat code + run.shift).toNat
  | none => code

end CaseShift

end Text
end SqlAudit
