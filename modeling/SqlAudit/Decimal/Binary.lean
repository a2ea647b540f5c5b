import SqlAudit.Decimal.Basic

/-!
Binary numbers of a fixed precision, and their decimal numerals: the shortest one that reads back as
the number, and the one with a fixed number of places.
-/

namespace SqlAudit

/-- The number `mantissa * 2 ^ exponent`, held in a fixed precision. -/
structure Binary where
  mantissa : Nat
  exponent : Int
  /-- Whether the next number below is half as far as the one above, as at a power of two. -/
  halfBelow : Bool
  deriving DecidableEq, Repr

namespace Binary

/-- A single-precision number that is finite and not negative. -/
def ofSingle (x : Float32) : Binary :=
  let bits := x.toBits.toNat
  let exponent : Nat := bits / twoTo 23 % twoTo 8
  let fraction : Nat := bits % twoTo 23
  if exponent = 0 then ⟨fraction, -149, false⟩
  else ⟨fraction + twoTo 23, (exponent : Int) - 150, fraction = 0 && 1 < exponent⟩

def widen (b : Binary) : Binary :=
  let shift := 52 - b.mantissa.log2
  let mantissa := b.mantissa * twoTo shift
  ⟨mantissa, b.exponent - shift, mantissa = twoTo 52⟩

/-! ## Exact fractions -/

/-- Two to the power of an integer, as a fraction of natural numbers. -/
def powerOfTwo (e : Int) : Nat × Nat := (twoTo e.toNat, twoTo (-e).toNat)

/-- A quotient rounded to the nearest number, a half to the even one. -/
def roundDiv (num den : Nat) : Nat :=
  let quotient := num / den
  let twice := 2 * (num % den)
  if twice < den ∨ (twice = den ∧ quotient % 2 = 0) then quotient else quotient + 1

/-- The numeral with a fixed number of places. -/
def fixed (places : Nat) (b : Binary) : List Char :=
  let (up, down) := powerOfTwo b.exponent
  Decimal.placed places (roundDiv (b.mantissa * up * tenTo places) down)

/-! ## Shortest numerals

The reals that are nearest to a number reach half a step to each side, with the ends if the mantissa
is even.  Quarters of a step are counted, so that the ends are whole. -/

/-- The nearest reals as an interval of fractions with one denominator. -/
structure Interval where
  low : Nat
  value : Nat
  high : Nat
  den : Nat
  /-- Whether the ends belong to it. -/
  closed : Bool

def interval (b : Binary) : Interval :=
  let (up, down) := powerOfTwo (b.exponent - 2)
  { low := (4 * b.mantissa - if b.halfBelow then 1 else 2) * up
    value := 4 * b.mantissa * up
    high := (4 * b.mantissa + 2) * up
    den := down
    closed := b.mantissa % 2 = 0 }

/-- Whether `digits * 10 ^ exponent` is in the interval. -/
def Interval.holds (i : Interval) (d : Decimal) : Bool :=
  let point := d.digits * tenTo d.exponent.toNat * i.den
  let scale := tenTo (-d.exponent).toNat
  if i.closed then i.low * scale ≤ point && point ≤ i.high * scale
  else i.low * scale < point && point < i.high * scale

/-- The power of ten of the first digit of the value. -/
def Interval.magnitude (i : Interval) : Int :=
  if i.den ≤ i.value then (Decimal.digitsOf (i.value / i.den)).length - 1
  else -(((List.range 400).find? fun k => i.den ≤ i.value * tenTo k).getD 0 : Nat)

/-- The numerals of `count` digits next to the value, the nearer one first. -/
def Interval.neighbours (i : Interval) (count : Nat) : List Decimal :=
  let exponent := i.magnitude - (count - 1 : Nat)
  let num := i.value * tenTo (-exponent).toNat
  let den := i.den * tenTo exponent.toNat
  let below := num / den
  if roundDiv num den = below then [⟨below, exponent⟩, ⟨below + 1, exponent⟩]
  else [⟨below + 1, exponent⟩, ⟨below, exponent⟩]

/-- The shortest numeral that reads back as the number.  Seventeen digits are always enough. -/
def shortest (b : Binary) : Decimal :=
  if b.mantissa = 0 then ⟨0, 0⟩
  else
    let i := b.interval
    (((List.range 17).findSome? fun n => (i.neighbours (n + 1)).find? i.holds).getD ⟨0, 0⟩).dropZeros 17

end Binary
end SqlAudit
