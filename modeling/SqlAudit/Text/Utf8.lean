import SqlAudit.Text.Basic

/-!
Reading UTF-8.  Bytes that are no character are replaced, one mark for each longest run that could
still have become a character.
-/

namespace SqlAudit
namespace Utf8

/-- Stands for bytes that are no character. -/
def replacement : Char := '\uFFFD'

/-- A character of which some bytes have been read. -/
structure Pending where
  /-- The value of the bits read so far. -/
  value : Nat
  /-- Bytes that are still missing, after the next one. -/
  more : Nat
  /-- The range of the next byte. -/
  first : Nat
  last : Nat
  deriving DecidableEq, Repr

/-- What a byte gives: characters, and the state after it. -/
abbrev Step := List Char × Option Pending

/-- The character that a first byte starts, when it starts one of several bytes. -/
def pending? (b : Nat) : Option Pending :=
  if 0xC2 ≤ b ∧ b ≤ 0xDF then some ⟨b - 0xC0, 0, 0x80, 0xBF⟩
  else if b = 0xE0 then some ⟨0, 1, 0xA0, 0xBF⟩
  else if b = 0xED then some ⟨0xD, 1, 0x80, 0x9F⟩
  else if 0xE1 ≤ b ∧ b ≤ 0xEF then some ⟨b - 0xE0, 1, 0x80, 0xBF⟩
  else if b = 0xF0 then some ⟨0, 2, 0x90, 0xBF⟩
  else if 0xF1 ≤ b ∧ b ≤ 0xF3 then some ⟨b - 0xF0, 2, 0x80, 0xBF⟩
  else if b = 0xF4 then some ⟨4, 2, 0x80, 0x8F⟩
  else none

/-- A byte between characters. -/
def start (b : Nat) : Step :=
  if b < 0x80 then ([Char.ofNat b], none)
  else match pending? b with
    | some p => ([], some p)
    | none => ([replacement], none)

/-- A byte in any state.  A byte that does not go on with a character starts anew. -/
def feed (state : Option Pending) (b : Nat) : Step :=
  match state with
  | none => start b
  | some p =>
    if p.first ≤ b ∧ b ≤ p.last then
      let value := p.value * 64 + (b - 0x80)
      match p.more with
      | 0 => ([Char.ofNat value], none)
      | more + 1 => ([], some ⟨value, more, 0x80, 0xBF⟩)
    else (replacement :: (start b).1, (start b).2)

/-- The text of bytes read from a state.  A character that the bytes break off is replaced. -/
def decodeFrom : Option Pending → List UInt8 → Text
  | none, [] => []
  | some _, [] => [replacement]
  | state, b :: rest =>
    let step := feed state b.toNat
    step.1 ++ decodeFrom step.2 rest

def decode (bytes : List UInt8) : Text := decodeFrom none bytes

/-- The text of bytes that are characters throughout. -/
def decode? (bytes : List UInt8) : Option Text :=
  let text := decode bytes
  if text.flatMap String.utf8EncodeChar = bytes then some text else none

end Utf8
end SqlAudit
