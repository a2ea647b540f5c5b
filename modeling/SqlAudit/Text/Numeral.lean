import SqlAudit.Text.Basic

/-!
Reading whole numbers of a bounded range.  Only the digits `0` to `9` count, and a reader refuses
a number outside its range instead of wrapping it.
-/

namespace SqlAudit
namespace Text

/-- The value of a digit sequence in a base, given the value of one digit. -/
def readDigits (base : Nat) (digit : Char → Option Nat) : Nat → Text → Option Nat
  | value, [] => some value
  | value, c :: rest => do
    let d ← digit c
    readDigits base digit (base * value + d) rest

def decimalDigit? (c : Char) : Option Nat :=
  if c.isDigit then some (c.toNat - '0'.toNat) else none

/-- The value of a digit of a base up to sixteen, in either case. -/
def baseDigit? (base : Nat) (c : Char) : Option Nat :=
  let value :=
    if c.isDigit then some (c.toNat - '0'.toNat)
    else if 'a' ≤ c ∧ c ≤ 'f' then some (c.toNat - 'a'.toNat + 10)
    else if 'A' ≤ c ∧ c ≤ 'F' then some (c.toNat - 'A'.toNat + 10)
    else none
  value.filter (· < base)

/-- A non-empty sequence of decimal digits. -/
def decimal? (t : Text) : Option Nat :=
  if t.isEmpty then none else readDigits 10 decimalDigit? 0 t

/-- A non-empty sequence of digits of a base. -/
def inBase? (base : Nat) (t : Text) : Option Nat :=
  if t.isEmpty then none else readDigits base (baseDigit? base) 0 t

/-- A number from zero to `last`, with at most one plus sign. -/
def unsigned? (last : Nat) (t : Text) : Option Nat :=
  let digits := match t with
    | '+' :: rest => rest
    | _ => t
  (decimal? digits).filter (· ≤ last)

/-- A number from `first` to `last`, with at most one sign. -/
def signed? (first last : Int) (t : Text) : Option Int :=
  let value := match t with
    | '+' :: rest => (decimal? rest).map Int.ofNat
    | '-' :: rest => (decimal? rest).map fun n => -Int.ofNat n
    | _ => (decimal? t).map Int.ofNat
  value.filter fun n => first ≤ n ∧ n ≤ last

end Text
end SqlAudit
