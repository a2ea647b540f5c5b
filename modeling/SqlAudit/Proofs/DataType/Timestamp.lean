import SqlAudit.Proofs.DataType.CalendarDate
import SqlAudit.Proofs.DataType.ClockTime

/-!
Dates with times.  The date in such a text must be one of the calendar, but of its clock only the
form is asked for: two digits of any script in each place.  So it is made of a date and a time
exactly when its clock is in range.
-/

namespace SqlAudit

open Text Pattern

/-! ## Dates by their form -/

namespace Calendar

/-- Numbers of four, two and two digits of any script, with hyphens between them. -/
def HasForm (t : Text) : Prop :=
  ∃ y m d, t = y ++ '-' :: (m ++ '-' :: d) ∧ IsDigits 4 y ∧ IsDigits 2 m ∧ IsDigits 2 d

def formPattern : Pattern :=
  all [exactly 4 digit, sign '-', exactly 2 digit, sign '-', exactly 2 digit]

theorem takes_formPattern : formPattern.Takes HasForm := by
  have hday : (all [exactly 2 digit]).Takes (IsDigits 2) := takes_exactly_digit 2
  refine ((takes_exactly_digit 4).all_cons (takes_sign_cons '-'
    ((takes_exactly_digit 2).all_cons (takes_sign_cons '-' hday)))).of_iff fun x => ?_
  constructor
  · rintro ⟨y, _, rfl, hy, _, rfl, m, _, rfl, hm, d, rfl, hd⟩
    exact ⟨y, m, d, rfl, hy, hm, hd⟩
  · rintro ⟨y, m, d, rfl, hy, hm, hd⟩
    exact ⟨y, _, rfl, hy, _, rfl, m, _, rfl, hm, d, rfl, hd⟩

theorem HasForm.length {t : Text} (h : HasForm t) : t.length = 10 := by
  obtain ⟨y, m, d, rfl, hy, hm, hd⟩ := h
  simp [hy.1, hm.1, hd.1]

theorem hasForm_of_accepts {t : Text} (h : accepts t = true) : HasForm t := by
  obtain ⟨y, m, d, year, month, day, rfl, ⟨hy, hyear⟩, ⟨hm, hmonth⟩, ⟨hd, hday⟩, -⟩ :=
    (accepts_iff_exists_texts t).mp h
  exact ⟨y, m, d, rfl, ⟨hy, isDigit_of_decimal? hyear⟩, ⟨hm, isDigit_of_decimal? hmonth⟩,
    ⟨hd, isDigit_of_decimal? hday⟩⟩

end Calendar

/-! ## Offsets -/

/-- An offset from universal time: `Z`, or a sign and two digits for the hours, with two digits for
the minutes if there are any, possibly after a colon. -/
def IsOffset (x : Text) : Prop :=
  x = ['Z'] ∨ ∃ sign hours rest, x = sign :: (hours ++ rest) ∧ (sign = '+' ∨ sign = '-') ∧
    IsDigits 2 hours ∧ (rest = [] ∨ IsDigits 2 rest ∨ ∃ minutes, rest = ':' :: minutes ∧
      IsDigits 2 minutes)

def offsetBody : Pattern :=
  any [sign 'Z', all [SampleFormat.plusMinus, exactly 2 digit,
    opt (seq (opt (sign ':')) (exactly 2 digit))]]

theorem takes_offsetBody : offsetBody.Takes IsOffset := by
  have hrest : (all [opt (seq (opt (sign ':')) (exactly 2 digit))]).Takes _ :=
    ((takes_sign ':').opt.seq (takes_exactly_digit 2)).opt
  refine ((takes_sign 'Z').alt ((takes_oneOf "+-").all_cons
    ((takes_exactly_digit 2).all_cons hrest))).of_iff fun x => ?_
  rw [IsOffset]
  refine or_congr Iff.rfl ?_
  constructor
  · rintro ⟨_, _, rfl, ⟨c, hc, rfl⟩, hours, rest, rfl, hhours, h⟩
    refine ⟨c, hours, rest, rfl, by simpa using hc, hhours, ?_⟩
    rcases h with ⟨_, minutes, rfl, rfl | rfl, hminutes⟩ | rfl
    · exact .inr (.inr ⟨minutes, rfl, hminutes⟩)
    · exact .inr (.inl hminutes)
    · exact .inl rfl
  · rintro ⟨c, hours, rest, rfl, hc, hhours, h⟩
    refine ⟨[c], _, rfl, ⟨c, by simpa using hc, rfl⟩, hours, rest, rfl, hhours, ?_⟩
    rcases h with rfl | hminutes | ⟨minutes, rfl, hminutes⟩
    · exact .inr rfl
    · exact .inl ⟨[], rest, rfl, .inr rfl, hminutes⟩
    · exact .inl ⟨[':'], minutes, rfl, .inl rfl, hminutes⟩

theorem IsOffset.ne_nil {z : Text} (h : IsOffset z) : z ≠ [] := by
  rcases h with rfl | ⟨sign, hours, rest, rfl, -⟩ <;> simp

theorem IsOffset.stops_follows {z : Text} (h : z = [] ∨ IsOffset z) : Stops ClockTime.follows z := by
  rcases h with rfl | rfl | ⟨sign, hours, rest, rfl, rfl | rfl, -, -⟩
  · exact stops_nil _
  · exact stops_of_head (by decide)
  · exact stops_of_head (by decide)
  · exact stops_of_head (by decide)

/-! ## Timestamps -/

/-- A date, a separator, a clock and possibly an offset. -/
structure Timestamp where
  date : Text
  separator : Char
  clock : ClockTime
  offset : Text

namespace Timestamp

variable {s s' : Timestamp} {v : Text}

def written (s : Timestamp) : Text := s.date ++ s.separator :: (s.clock.written ++ s.offset)

/-- Each number has as many digits as it must have. -/
structure HasForm (s : Timestamp) : Prop where
  date : Calendar.HasForm s.date
  separator : s.separator = ' ' ∨ s.separator = 'T'
  clock : s.clock.HasDigits
  offset : s.offset = [] ∨ IsOffset s.offset

/-- The pattern of a timestamp between the edges of the text. -/
def body : List Pattern :=
  [capture .date Calendar.formPattern, oneOf " T"] ++
    (ClockTime.clockBody (exactly 2 digit) (exactly 2 digit) ++ [opt (capture .zone offsetBody)])

theorem dateTimePattern_eq : SampleFormat.dateTimePattern = all (start :: (body ++ [stop])) := rfl

def parts (s : Timestamp) : List (Part × Text) :=
  (if s.offset = [] then [] else [(.zone, s.offset)]) ++ [(.date, s.date)]

theorem spells_offset {z : Text} {found : List (Part × Text)} :
    (all [opt (capture .zone offsetBody)]).Spells z found ↔
      (z = [] ∨ IsOffset z) ∧ found = if z = [] then [] else [(.zone, z)] := by
  show (opt (capture .zone offsetBody)).Spells z found ↔ _
  rw [opt, spells_alt, takes_offsetBody.spells_capture, spells_done]
  constructor
  · rintro (⟨hz, rfl⟩ | ⟨rfl, rfl⟩)
    · exact ⟨.inr hz, by rw [if_neg hz.ne_nil]⟩
    · exact ⟨.inl rfl, rfl⟩
  · rintro ⟨rfl | hz, rfl⟩
    · exact .inr ⟨rfl, rfl⟩
    · exact .inl ⟨hz, by rw [if_neg hz.ne_nil]⟩

theorem spells_body {found : List (Part × Text)} :
    (all body).Spells v found ↔ ∃ s : Timestamp, s.HasForm ∧ v = s.written ∧ found = s.parts := by
  have hseparator : (all [oneOf " T"]).Takes _ := takes_oneOf " T"
  have hclock :=
    ClockTime.takes_clockBody (takes_exactly_digit 2) (takes_exactly_digit 2)
  simp only [body, spells_all_append, spells_all_cons _ [_],
    Calendar.takes_formPattern.spells_capture, hseparator _ _, hclock _ _, spells_offset]
  constructor
  · rintro ⟨_, _, _, _, rfl, rfl, ⟨d, _, _, _, rfl, rfl, ⟨hd, rfl⟩, ⟨c, hc, rfl⟩, rfl⟩,
      _, z, _, _, rfl, rfl, ⟨⟨clock, hclock, rfl⟩, rfl⟩, hz, rfl⟩
    exact ⟨⟨d, c, clock, z⟩, ⟨hd, by simpa using hc, hclock, hz⟩, by simp [written], by simp [parts]⟩
  · rintro ⟨⟨d, c, clock, z⟩, ⟨hd, hc, hclock, hz⟩, rfl, rfl⟩
    exact ⟨d ++ [c], clock.written ++ z, [(.date, d)], _, by simp [written], rfl,
      ⟨d, [c], _, [], rfl, rfl, ⟨hd, rfl⟩, ⟨c, by simpa using hc, rfl⟩, rfl⟩,
      clock.written, z, [], _, rfl, by simp, ⟨⟨clock, hclock, rfl⟩, rfl⟩, hz, rfl⟩

/-- A timestamp can be read off its text. -/
theorem written_inj (hs : s.HasForm) (hs' : s'.HasForm) (h : s.written = s'.written) : s = s' := by
  obtain ⟨d, c, clock, z⟩ := s
  obtain ⟨d', c', clock', z'⟩ := s'
  obtain ⟨rfl, hrest⟩ := List.append_inj h (hs.date.length.trans hs'.date.length.symm)
  obtain ⟨rfl, hclock⟩ := List.cons.inj hrest
  obtain ⟨rfl, rfl⟩ := ClockTime.written_append_inj hs.clock hs'.clock
    (IsOffset.stops_follows hs.offset) (IsOffset.stops_follows hs'.offset) hclock
  rfl

/-! ## What is accepted -/

theorem of_find?_dateTimePattern {m : Match} (h : SampleFormat.dateTimePattern.find? v = some m) :
    ∃ s : Timestamp, s.HasForm ∧ v = s.written ∧ m.textOf .date = s.date ∧
      ((m.part? .zone).isSome = true ↔ s.offset ≠ []) := by
  rw [dateTimePattern_eq] at h
  obtain ⟨found, hspells, hparts⟩ := spells_of_find? rfl h
  obtain ⟨s, hs, hv, rfl⟩ := spells_body.mp hspells
  have hzone : (m.part? .zone).isSome = (m.textOf? .zone).isSome := by
    rw [Match.textOf?, Option.isSome_map]
  refine ⟨s, hs, hv, ?_, ?_⟩
  · rw [Match.textOf, hparts]
    by_cases hoffset : s.offset = [] <;> simp [parts, hoffset]
  · rw [hzone, hparts]
    by_cases hoffset : s.offset = [] <;> simp [parts, hoffset]

theorem acceptsDateTime_iff (v : Text) (needsZone : Bool) :
    SampleFormat.acceptsDateTime v needsZone = true ↔ ∃ s : Timestamp, s.HasForm ∧ v = s.written ∧
      Calendar.accepts s.date = true ∧ (needsZone = true → s.offset ≠ []) := by
  rw [SampleFormat.acceptsDateTime, Option.any_eq_true]
  constructor
  · rintro ⟨m, hm, haccepts⟩
    obtain ⟨s, hs, hv, hdate, hzone⟩ := of_find?_dateTimePattern hm
    rw [hdate, Bool.and_eq_true, Bool.or_eq_true, hzone] at haccepts
    refine ⟨s, hs, hv, haccepts.1, fun hneeds => ?_⟩
    simpa [hneeds] using haccepts.2
  · rintro ⟨s, hs, rfl, hdate, hneeds⟩
    obtain ⟨m, hm⟩ := exists_find?_of_spells (spells_body.mpr ⟨s, hs, rfl, rfl⟩)
    rw [← dateTimePattern_eq] at hm
    obtain ⟨s', hs', hwritten, hdate', hzone⟩ := of_find?_dateTimePattern hm
    obtain rfl := written_inj hs hs' hwritten
    refine ⟨m, hm, ?_⟩
    rw [hdate', hdate, Bool.true_and, Bool.or_eq_true, hzone]
    cases needsZone
    · exact .inl rfl
    · exact .inr (hneeds rfl)

/-- A timestamp of a format: its date is one of the calendar, and it has the offset that the format
asks for. -/
structure IsFor (format : SampleFormat) (s : Timestamp) : Prop extends s.HasForm where
  valid : SampleFormat.accepts .date s.date = true
  zone : format = .dateTimeZone → s.offset ≠ []

/-- A text made of a date and a time, with the offset that a format asks for. -/
def IsDateAndTime (format : SampleFormat) (v : Text) : Prop :=
  ∃ d separator t z, v = d ++ separator :: (t ++ z) ∧ (separator = ' ' ∨ separator = 'T') ∧
    (z = [] ∨ IsOffset z) ∧ (format = .dateTimeZone → z ≠ []) ∧
    SampleFormat.accepts .date d = true ∧ SampleFormat.accepts .time t = true

theorem accepts_iff_exists_isFor {format : SampleFormat}
    (hformat : format = .dateTime ∨ format = .dateTimeZone) (v : Text) :
    format.accepts v = true ↔ ∃ s : Timestamp, s.IsFor format ∧ v = s.written := by
  rcases hformat with rfl | rfl
  · show SampleFormat.acceptsDateTime v false = true ↔ _
    rw [acceptsDateTime_iff]
    constructor
    · rintro ⟨s, hs, hv, hdate, -⟩
      exact ⟨s, ⟨hs, hdate, nofun⟩, hv⟩
    · rintro ⟨s, ⟨hs, hdate, -⟩, hv⟩
      exact ⟨s, hs, hv, hdate, nofun⟩
  · show SampleFormat.acceptsDateTime v true = true ↔ _
    rw [acceptsDateTime_iff]
    constructor
    · rintro ⟨s, hs, hv, hdate, hzone⟩
      exact ⟨s, ⟨hs, hdate, fun _ => hzone rfl⟩, hv⟩
    · rintro ⟨s, ⟨hs, hdate, hzone⟩, hv⟩
      exact ⟨s, hs, hv, hdate, fun _ => hzone rfl⟩

theorem isDateAndTime_written_iff {format : SampleFormat} (hs : s.IsFor format) :
    IsDateAndTime format s.written ↔ s.clock.InRange := by
  constructor
  · rintro ⟨d, separator, t, z, hwritten, hseparator, hz, -, hdate, ht⟩
    obtain ⟨clock, hclock, rfl⟩ := (ClockTime.accepts_time_iff t).mp ht
    have hform : HasForm ⟨d, separator, clock, z⟩ :=
      ⟨Calendar.hasForm_of_accepts hdate, hseparator, hclock.hasDigits, hz⟩
    rw [written_inj hs.toHasForm hform hwritten]
    exact hclock
  · intro hclock
    exact ⟨s.date, s.separator, s.clock.written, s.offset, rfl, hs.separator, hs.offset, hs.zone,
      hs.valid, (ClockTime.accepts_time_iff _).mpr ⟨s.clock, hclock, rfl⟩⟩

/-- Dates with times are accepted by their form and by their date.  What is accepted is made of a
date and a time exactly when its clock is in range. -/
theorem accepts_dateTime_iff_inRange (format : SampleFormat)
    (hformat : format = .dateTime ∨ format = .dateTimeZone) (v : Text) :
    (format.accepts v = true ↔ ∃ s : Timestamp, s.IsFor format ∧ v = s.written) ∧
      ∀ s : Timestamp, s.IsFor format → v = s.written →
        (IsDateAndTime format v ↔ s.clock.InRange) := by
  refine ⟨accepts_iff_exists_isFor hformat v, ?_⟩
  rintro s hs rfl
  exact isDateAndTime_written_iff hs

/-- The clock of an accepted text need not be one. -/
theorem accepts_dateTime_out_of_range :
    SampleFormat.accepts .dateTime "2024-01-05 99:99:99".toList = true ∧
      ¬ IsDateAndTime .dateTime "2024-01-05 99:99:99".toList := by
  obtain ⟨haccepts, hmade⟩ :=
    accepts_dateTime_iff_inRange .dateTime (.inl rfl) "2024-01-05 99:99:99".toList
  have hdate : SampleFormat.accepts .date "2024-01-05".toList = true := by decide
  have hs : IsFor .dateTime
      ⟨"2024-01-05".toList, ' ', ⟨['9', '9'], ['9', '9'], some (['9', '9'], none)⟩, []⟩ := by
    refine ⟨⟨Calendar.hasForm_of_accepts hdate, .inl rfl, ⟨?_, ?_, ?_, ?_⟩, .inl rfl⟩, hdate, nofun⟩
    · exact ClockTime.isDigits_pair (by decide) (by decide)
    · exact ClockTime.isDigits_pair (by decide) (by decide)
    · rintro _ _ ⟨⟩
      exact ClockTime.isDigits_pair (by decide) (by decide)
    · nofun
  refine ⟨haccepts.mpr ⟨_, hs, rfl⟩, fun h => ?_⟩
  obtain ⟨c, d, hpair, hc⟩ := ((hmade _ hs rfl).mp h).hour
  obtain ⟨rfl, -⟩ := List.cons.inj hpair
  rcases hc with ⟨hzero | hone, -⟩ | ⟨htwo, -⟩
  · exact absurd hzero (by decide)
  · exact absurd hone (by decide)
  · exact absurd htwo (by decide)

end Timestamp
end SqlAudit
