import SqlAudit.Power

/-!
Decimal numerals and how they are laid out as text.
-/

namespace SqlAudit

structure Decimal where
  digits : Nat
  exponent : Int
  deriving DecidableEq, Repr

/-- Where a numeral is written without an exponent: up to `mostWhole` digits before the point, or up
to `mostZeros` zeros right after it. -/
structure DecimalLayout where
  mostWhole : Int
  mostZeros : Int
  deriving DecidableEq, Repr

namespace Decimal

def digitsOf (n : Nat) : List Char := Nat.toDigits 10 n

/-- A numeral whose digits do not end in zero, unless it is zero; `fuel` bounds the zeros. -/
def dropZeros : (fuel : Nat) → Decimal → Decimal
  | 0, d => d
  | fuel + 1, d =>
    if d.digits ≠ 0 ∧ d.digits % 10 = 0 then dropZeros fuel ⟨d.digits / 10, d.exponent + 1⟩ else d

/-- Whether a numeral rounds to a finite double-precision number.  The number of digits decides,
except near the largest of them. -/
def isFinite (d : Decimal) : Bool :=
  let point : Int := (digitsOf d.digits).length + d.exponent
  if d.digits = 0 ∨ point ≤ 308 then true
  else if 310 < point then false
  else d.digits * tenTo d.exponent.toNat < (twoTo 1024 - twoTo 970) * tenTo (-d.exponent).toNat

/-- A numeral with a point, and with an exponent where the layout asks for one. -/
def render (layout : DecimalLayout) (d : Decimal) : List Char :=
  let digits := digitsOf d.digits
  let point : Int := digits.length + d.exponent
  if d.digits = 0 then ['0', '.', '0']
  else if 0 ≤ d.exponent ∧ point ≤ layout.mostWhole then
    digits ++ List.replicate d.exponent.toNat '0' ++ ['.', '0']
  else if 0 < point ∧ point ≤ layout.mostWhole then
    digits.take point.toNat ++ '.' :: digits.drop point.toNat
  else if -layout.mostZeros ≤ point ∧ point ≤ 0 then
    '0' :: '.' :: List.replicate (-point).toNat '0' ++ digits
  else
    let fraction := match digits.drop 1 with
      | [] => []
      | rest => '.' :: rest
    digits.take 1 ++ fraction ++ 'e' :: (toString (point - 1)).toList

/-- Whole units and a fraction of a fixed number of digits, from a count of the last digit's unit. -/
def placed (places units : Nat) : List Char :=
  let fraction := digitsOf (units % tenTo places)
  digitsOf (units / tenTo places) ++
    if places = 0 then [] else '.' :: List.replicate (places - fraction.length) '0' ++ fraction

end Decimal
end SqlAudit
