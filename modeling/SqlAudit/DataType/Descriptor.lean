import SqlAudit.DataType.Category
import SqlAudit.DataType.SampleFormat
import SqlAudit.Dialect

/-!
Descriptions of data types across dialects.
-/

namespace SqlAudit

/-- A number of hundredths in single precision. -/
def hundredths (n : Int) : Float32 := Float32.ofInt n / 100

structure Descriptor where
  /-- The name that stands for the type in every dialect. -/
  name : String
  category : TypeCategory
  /-- Names of the dialects that have the type. -/
  dialects : List String := []
  aliases : List String := []
  /-- For a dialect without the type, the type to use there. -/
  conversions : List (String × String) := []
  /-- How values of the type look; without it the type is never inferred. -/
  format : Option SampleFormat := none
  /-- A weight that favours narrow types over those that hold nearly everything. -/
  specificity : Float32 := 0
  acceptsSize : Bool := false
  acceptsPrecision : Bool := false

namespace Descriptor

/-- Whether a dialect, by any of its names, has the type. -/
def supports (d : Descriptor) (dialect : String) : Bool :=
  (Dialect.normalName? dialect).any d.dialects.contains

/-- The type to use in a dialect, by any of its names, if a rule gives one. -/
def conversionFor? (d : Descriptor) (dialect : String) : Option String :=
  (Dialect.normalName? dialect).bind fun name => d.conversions.lookup name

/-- Adds a conversion rule; a rule for the same dialect is replaced in its place. -/
def addRule (rules : List (String × String)) (rule : String × String) : List (String × String) :=
  if (rules.lookup rule.1).isSome then
    rules.map fun old => if old.1 == rule.1 then rule else old
  else rules ++ [rule]

def convertsTo (d : Descriptor) (target : String) : Bool :=
  d.conversions.any fun rule => sameName rule.2 target

end Descriptor
end SqlAudit
