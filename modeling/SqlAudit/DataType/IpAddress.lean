import SqlAudit.Text.Numeral

/-!
Internet addresses.  A reader gives what is left after an address, and fails without having read
anything.
-/

namespace SqlAudit

inductive IpVersion where
  | four
  | six
  deriving DecidableEq, Repr

namespace IpAddress

/-- Reads one to `most` digits of a base; more digits than that fail.  Gives the value, the digits
and what is left. -/
def readNumber? (base most : Nat) (t : Text) : Option (Nat × Text × Text) :=
  let isDigit (c : Char) : Bool := (Text.baseDigit? base c).isSome
  let digits := t.takeWhile isDigit
  if digits.length ≤ most then
    (Text.inBase? base digits).map fun value => (value, digits, t.dropWhile isDigit)
  else none

/-- Reads a number of an address of version four: at most 255, without leading zeros. -/
def readOctet? (t : Text) : Option Text :=
  match readNumber? 10 3 t with
  | some (value, digits, rest) =>
    if value ≤ 255 ∧ (digits.length ≤ 1 ∨ digits.head? ≠ some '0') then some rest else none
  | none => none

def readSign? (c : Char) : Text → Option Text
  | [] => none
  | d :: rest => if d = c then some rest else none

def readFour? (t : Text) : Option Text := do
  let t ← readOctet? t
  let t ← readOctet? (← readSign? '.' t)
  let t ← readOctet? (← readSign? '.' t)
  readOctet? (← readSign? '.' t)

/-- The groups that were read: their number, whether an address of version four ended them, and
what is left. -/
structure Groups where
  count : Nat
  endsInFour : Bool
  rest : Text

/-- Reads up to `room` more groups of four digits of base sixteen, separated by colons, after
`count` groups. -/
def readGroups : (room : Nat) → (count : Nat) → Text → Groups
  | 0, count, t => ⟨count, false, t⟩
  | room + 1, count, t =>
    let body := if count = 0 then some t else readSign? ':' t
    -- An address of version four may end the groups where there is room for two.
    let four := if room = 0 then none else body.bind readFour?
    match four with
    | some rest => ⟨count + 2, true, rest⟩
    | none =>
      match body.bind (readNumber? 16 4) with
      | some (_, _, rest) => readGroups room (count + 1) rest
      | none => ⟨count, false, t⟩

/-- Reads eight groups, or fewer with two colons in place of the groups of zeros that are left
out. -/
def readSix? (t : Text) : Option Text :=
  let front := readGroups 8 0 t
  if front.count = 8 then some front.rest
  else if front.endsInFour then none
  else do
    let t ← readSign? ':' (← readSign? ':' front.rest)
    return (readGroups (7 - front.count) 0 t).rest

def version? (t : Text) : Option IpVersion :=
  match readFour? t with
  | some rest => if rest.isEmpty then some .four else none
  | none => if readSix? t = some [] then some .six else none

/-- Whether a text is an address with the length of a network number after a slash. -/
def isNetwork (t : Text) : Bool :=
  match Text.splitOnce? ['/'] t with
  | none => false
  | some (address, length) =>
    match version? address with
    | some .four => (Text.unsigned? 255 length).any (· ≤ 32)
    | some .six => (Text.unsigned? 255 length).any (· ≤ 128)
    | none => false

end IpAddress
end SqlAudit
