import SqlAudit.Pattern.Vocabulary
import SqlAudit.Text.Numeral

/-!
Dates of the Gregorian calendar.
-/

namespace SqlAudit
namespace Calendar

def isLeap (year : Nat) : Bool := year % 4 == 0 && (year % 100 != 0 || year % 400 == 0)

/-- Days of a month; a number that is no month has none. -/
def daysIn (year month : Nat) : Nat :=
  match month with
  | 1 | 3 | 5 | 7 | 8 | 10 | 12 => 31
  | 4 | 6 | 9 | 11 => 30
  | 2 => if isLeap year then 29 else 28
  | _ => 0

def isDate (year month day : Nat) : Bool := 1 ≤ day && day ≤ daysIn year month

open Pattern

def datePattern : Pattern :=
  all [start, capture .year (exactly 4 digit), sign '-', capture .month (exactly 2 digit), sign '-',
    capture .day (exactly 2 digit), stop]

/-- Whether a text is a date: year, month and day in four, two and two digits. -/
def accepts (t : Text) : Bool :=
  match datePattern.find? t with
  | none => false
  | some m =>
    -- The pattern takes digits of every script; the numbers are read from `0` to `9` only.
    match Text.decimal? (m.textOf .year), Text.decimal? (m.textOf .month),
        Text.decimal? (m.textOf .day) with
    | some year, some month, some day => isDate year month day
    | _, _, _ => false

end Calendar
end SqlAudit
