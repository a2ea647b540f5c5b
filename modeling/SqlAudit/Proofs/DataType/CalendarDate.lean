import Mathlib
import SqlAudit.DataType.SampleFormat
import SqlAudit.Proofs.Pattern.Spelling
import SqlAudit.Proofs.Text.Numeral

/-!
Dates as texts.  The dates of the Gregorian calendar are those of the standard library; a text is
accepted as a date exactly when it is the written form of one of them.
-/

namespace SqlAudit

open Text Pattern Std.Time

namespace Calendar

/-! ## The calendar -/

theorem isLeap_natCast (year : Nat) : Year.Offset.isLeap (year : Int) = isLeap year := by
  have hdivides : ∀ n : Nat, Int.tmod (year : Int) (n : Int) = 0 ↔ year % n = 0 := by
    intro n
    rw [← Int.ofNat_tmod]
    exact Int.natCast_eq_zero
  have hfour := hdivides 4
  have hhundred := hdivides 100
  have hfourHundred := hdivides 400
  rw [Year.Offset.isLeap, isLeap, Bool.eq_iff_iff]
  simp_all [Year.Offset.toInt]

theorem days_eq_daysIn (year : Nat) (month : Month.Ordinal) :
    (Month.Ordinal.days (isLeap year) month).val = daysIn year month.val.toNat := by
  obtain ⟨value, hlow, hhigh⟩ := month
  simp only [daysIn]
  generalize isLeap year = leap
  interval_cases value <;> cases leap <;> rfl

theorem bounds_of_isDate {year month day : Nat} (h : isDate year month day = true) :
    (1 ≤ month ∧ month ≤ 12) ∧ 1 ≤ day ∧ day ≤ 31 := by
  rw [isDate, Bool.and_eq_true, decide_eq_true_eq, decide_eq_true_eq] at h
  obtain ⟨hone, hlast⟩ := h
  revert hlast
  fun_cases daysIn year month <;> grind

/-- Year, month and day are a date exactly when the calendar has one of these numbers. -/
theorem isDate_iff_exists_plainDate (year month day : Nat) :
    isDate year month day = true ↔ ∃ d : PlainDate,
      d.year.toInt = year ∧ d.month.val = month ∧ d.day.val = day := by
  constructor
  · intro h
    obtain ⟨⟨hfirst, htwelfth⟩, hone, hlast⟩ := bounds_of_isDate h
    obtain ⟨m, hm⟩ : ∃ m : Month.Ordinal, m.val = month := ⟨⟨month, by omega, by omega⟩, rfl⟩
    obtain ⟨d, hd⟩ : ∃ d : Day.Ordinal, d.val = day := ⟨⟨day, by omega, by omega⟩, rfl⟩
    have hvalid : Year.Offset.Valid (year : Int) m d := by
      rw [isDate, Bool.and_eq_true, decide_eq_true_eq, decide_eq_true_eq] at h
      show d.val ≤ (Month.Ordinal.days _ m).val
      rw [isLeap_natCast, days_eq_daysIn, hd, hm]
      exact Int.ofNat_le.mpr h.2
    exact ⟨⟨(year : Int), m, d, hvalid⟩, rfl, hm, hd⟩
  · rintro ⟨⟨year', m, d, hvalid⟩, hyear, hm, hd⟩
    subst hyear
    have hlast : d.val ≤ (Month.Ordinal.days _ m).val := hvalid
    have hfirst : 1 ≤ d.val := d.property.1
    rw [isLeap_natCast, days_eq_daysIn] at hlast
    change m.val = _ at hm
    change d.val = _ at hd
    rw [hd, hm, Int.toNat_natCast] at hlast
    rw [isDate, Bool.and_eq_true, decide_eq_true_eq, decide_eq_true_eq]
    omega

/-! ## Texts -/

/-- A date with its year in four digits, and month and day in two. -/
def written (d : PlainDate) : Text :=
  padded 4 d.year.toInt.toNat ++ '-' :: (padded 2 d.month.val.toNat ++ '-' ::
    padded 2 d.day.val.toNat)

def dateBody : List Pattern :=
  [capture .year (exactly 4 digit), sign '-', capture .month (exactly 2 digit), sign '-',
    capture .day (exactly 2 digit)]

theorem spells_dateBody {t : Text} {parts : List (Part × Text)} :
    (all dateBody).Spells t parts ↔ ∃ y m d, t = y ++ '-' :: (m ++ '-' :: d) ∧
      IsDigits 4 y ∧ IsDigits 2 m ∧ IsDigits 2 d ∧
      parts = [(.day, d), (.month, m), (.year, y)] := by
  have hday : ∀ x parts, (all [capture .day (exactly 2 digit)]).Spells x parts ↔
      IsDigits 2 x ∧ parts = [(.day, x)] :=
    fun x parts => (takes_exactly_digit 2).spells_capture .day
  simp only [dateBody, spells_all_cons _ (_ :: _), (takes_exactly_digit _).spells_capture,
    takes_sign _ _ _, hday]
  constructor
  · rintro ⟨y, _, _, _, rfl, rfl, ⟨hy, rfl⟩, _, _, _, _, rfl, rfl, ⟨rfl, rfl⟩, m, _, _, _, rfl, rfl,
      ⟨hm, rfl⟩, _, d, _, _, rfl, rfl, ⟨rfl, rfl⟩, hd, rfl⟩
    exact ⟨y, m, d, rfl, hy, hm, hd, rfl⟩
  · rintro ⟨y, m, d, rfl, hy, hm, hd, rfl⟩
    exact ⟨y, _, _, [(.day, d), (.month, m)], rfl, rfl, ⟨hy, rfl⟩, ['-'], _, [], _, rfl, rfl,
      ⟨rfl, rfl⟩, m, _, _, [(.day, d)], rfl, rfl, ⟨hm, rfl⟩, ['-'], d, [], _, rfl, rfl, ⟨rfl, rfl⟩,
      hd, rfl⟩

theorem of_find?_datePattern {t : Text} {found : Match} (h : datePattern.find? t = some found) :
    ∃ y m d, t = y ++ '-' :: (m ++ '-' :: d) ∧ IsDigits 4 y ∧ IsDigits 2 m ∧ IsDigits 2 d ∧
      found.textOf .year = y ∧ found.textOf .month = m ∧ found.textOf .day = d := by
  obtain ⟨parts, hspells, hparts⟩ :=
    spells_of_find? (show (all dateBody).plain = true from rfl) h
  obtain ⟨y, m, d, ht, hy, hm, hd, rfl⟩ := spells_dateBody.mp hspells
  refine ⟨y, m, d, ht, hy, hm, hd, ?_, ?_, ?_⟩
  · simp [Match.textOf, hparts]
  · simp [Match.textOf, hparts]
  · simp [Match.textOf, hparts]

/-- What is accepted is three numbers of four, two and two digits that are a date. -/
theorem accepts_iff_exists_texts (t : Text) :
    accepts t = true ↔ ∃ y m d year month day, t = y ++ '-' :: (m ++ '-' :: d) ∧
      (y.length = 4 ∧ decimal? y = some year) ∧ (m.length = 2 ∧ decimal? m = some month) ∧
      (d.length = 2 ∧ decimal? d = some day) ∧ isDate year month day = true := by
  rw [accepts]
  constructor
  · intro h
    split at h
    · cases h
    · rename_i found hfound
      obtain ⟨y, m, d, ht, hy, hm, hd, hyear, hmonth, hday⟩ := of_find?_datePattern hfound
      rw [hyear, hmonth, hday] at h
      split at h
      · rename_i year month day hyear hmonth hday
        exact ⟨y, m, d, year, month, day, ht, ⟨hy.1, hyear⟩, ⟨hm.1, hmonth⟩, ⟨hd.1, hday⟩, h⟩
      · cases h
  · rintro ⟨y, m, d, year, month, day, rfl, ⟨hy, hyear⟩, ⟨hm, hmonth⟩, ⟨hd, hday⟩, h⟩
    obtain ⟨found, hfound⟩ : ∃ found, datePattern.find? (y ++ '-' :: (m ++ '-' :: d)) = some found :=
      exists_find?_of_spells (spells_dateBody.mpr ⟨y, m, d, rfl,
        ⟨hy, isDigit_of_decimal? hyear⟩, ⟨hm, isDigit_of_decimal? hmonth⟩,
        ⟨hd, isDigit_of_decimal? hday⟩, rfl⟩)
    obtain ⟨y', m', d', ht, hy', hm', -, hyear', hmonth', hday'⟩ := of_find?_datePattern hfound
    -- The pattern reads texts of fixed lengths, so the match can only have found these texts.
    obtain ⟨rfl, hmonths⟩ := List.append_inj ht (by rw [hy, hy'.1])
    obtain ⟨rfl, hdays⟩ := List.append_inj (List.cons.inj hmonths).2 (by rw [hm, hm'.1])
    obtain rfl := (List.cons.inj hdays).2
    rw [hfound]
    simp only [hyear', hmonth', hday', hyear, hmonth, hday, h]

/-- A text is accepted as a date exactly when it is a date of the calendar, in a year from 0 to
9999, with the year in four digits and month and day in two. -/
theorem accepts_date_iff_written (t : Text) :
    SampleFormat.accepts .date t = true ↔
      ∃ d : PlainDate, 0 ≤ d.year.toInt ∧ d.year.toInt ≤ 9999 ∧ t = written d := by
  have htwo : tenTo 2 = 100 := rfl
  have hfour : tenTo 4 = 10000 := rfl
  show accepts t = true ↔ _
  rw [accepts_iff_exists_texts]
  constructor
  · rintro ⟨y, m, d, year, month, day, rfl, hy, hm, hd, h⟩
    obtain ⟨rfl, hyear⟩ := (decimal?_eq_some_iff_padded (by decide)).mp hy
    obtain ⟨rfl, -⟩ := (decimal?_eq_some_iff_padded (by decide)).mp hm
    obtain ⟨rfl, -⟩ := (decimal?_eq_some_iff_padded (by decide)).mp hd
    obtain ⟨date, hyear', hmonth, hday⟩ := (isDate_iff_exists_plainDate _ _ _).mp h
    refine ⟨date, by omega, by omega, ?_⟩
    rw [written, hyear', hmonth, hday]
    rfl
  · rintro ⟨date, hfirst, hlast, rfl⟩
    have h : isDate date.year.toInt.toNat date.month.val.toNat date.day.val.toNat = true := by
      rw [isDate_iff_exists_plainDate]
      have hmonth : 1 ≤ date.month.val := date.month.property.1
      have hday : 1 ≤ date.day.val := date.day.property.1
      exact ⟨date, by omega, by omega, by omega⟩
    obtain ⟨hmonth, hday⟩ := bounds_of_isDate h
    refine ⟨_, _, _, _, _, _, rfl, ?_, ?_, ?_, h⟩
    · exact (decimal?_eq_some_iff_padded (by decide)).mpr ⟨rfl, by omega⟩
    · exact (decimal?_eq_some_iff_padded (by decide)).mpr ⟨rfl, by omega⟩
    · exact (decimal?_eq_some_iff_padded (by decide)).mpr ⟨rfl, by omega⟩

end Calendar
end SqlAudit
