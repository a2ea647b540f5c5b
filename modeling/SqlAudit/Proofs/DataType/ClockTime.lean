import SqlAudit.Proofs.DataType.CalendarDate

/-!
Clocks as texts.  The pattern of a clock has the patterns of its numbers as parameters: a time takes
hours below 24, and minutes and seconds below 60.
-/

namespace SqlAudit

open Text Pattern

/-! ## Clock times as texts -/

/-- The hours and minutes of a clock, and possibly its seconds, with the digits of a fraction if
there are any. -/
structure ClockTime where
  hour : Text
  minute : Text
  second : Option (Text × Option Text)

/-- A run of characters of a class ends where the text stops going on with them. -/
theorem Text.append_inj_of_stops {accepts : Char → Bool} {x y z w : Text}
    (hx : ∀ c ∈ x, accepts c = true) (hy : ∀ c ∈ y, accepts c = true) (hz : Stops accepts z)
    (hw : Stops accepts w) (h : x ++ z = y ++ w) : x = y ∧ z = w := by
  have htake : ∀ {x z : Text}, (∀ c ∈ x, accepts c = true) → Stops accepts z →
      (x ++ z).takeWhile accepts = x := by
    intro x z hx hz
    rw [List.takeWhile_append_of_pos hx]
    cases z with
    | nil => simp
    | cons c z => rw [List.takeWhile_cons_of_neg (by simpa using hz), List.append_nil]
  have hxy : x = y := by
    rw [← htake hx hz, h, htake hy hw]
  subst hxy
  exact ⟨rfl, List.append_cancel_left h⟩

namespace ClockTime

def fractionText : Option Text → Text
  | none => []
  | some digits => '.' :: digits

def secondText : Option (Text × Option Text) → Text
  | none => []
  | some (seconds, fraction) => ':' :: (seconds ++ fractionText fraction)

def written (c : ClockTime) : Text := c.hour ++ ':' :: (c.minute ++ secondText c.second)

def IsFraction (x : Text) : Prop := (1 ≤ x.length ∧ x.length ≤ 9) ∧ ∀ c ∈ x, isDigit c = true

/-- The hours satisfy the first property, minutes and seconds the second one. -/
structure Has (hours sixtieths : Text → Prop) (c : ClockTime) : Prop where
  hour : hours c.hour
  minute : sixtieths c.minute
  second : ∀ seconds fraction, c.second = some (seconds, fraction) → sixtieths seconds
  fraction : ∀ seconds digits, c.second = some (seconds, some digits) → IsFraction digits

abbrev HasDigits : ClockTime → Prop := Has (IsDigits 2) (IsDigits 2)

/-- An hour below 24, as its first digit and, after a `2`, its second one tell. -/
def IsHour (x : Text) : Prop :=
  ∃ c d, x = [c, d] ∧ ((c = '0' ∨ c = '1') ∧ isDigit d = true ∨ c = '2' ∧ d ∈ "0123".toList)

/-- A number below 60, as its first digit tells. -/
def IsSixtieth (x : Text) : Prop := ∃ c d, x = [c, d] ∧ c ∈ "012345".toList ∧ isDigit d = true

abbrev InRange : ClockTime → Prop := Has IsHour IsSixtieth

/-- The pattern of a clock, from patterns for the hours and for minutes and seconds. -/
def clockBody (hours sixtieths : Pattern) : List Pattern :=
  [hours, sign ':', sixtieths, opt (all [sign ':', sixtieths, opt SampleFormat.secondFraction])]

theorem takes_secondFraction :
    SampleFormat.secondFraction.Takes fun x => ∃ digits, x = '.' :: digits ∧ IsFraction digits := by
  have hdigits : (all [digit, upTo 8 digit]).Takes IsFraction := by
    refine ((takes_exactly_digit 1).seq (takes_upTo_char 8 isDigit)).of_iff fun x => ?_
    constructor
    · rintro ⟨y, z, rfl, ⟨hone, hy⟩, hlength, hz⟩
      exact ⟨by rw [List.length_append]; omega, List.forall_mem_append.mpr ⟨hy, hz⟩⟩
    · rintro ⟨⟨hone, hlength⟩, hx⟩
      refine ⟨x.take 1, x.drop 1, (List.take_append_drop 1 x).symm, ⟨?_, ?_⟩, ?_, ?_⟩
      · rw [List.length_take]
        omega
      · exact fun c hc => hx c (List.mem_of_mem_take hc)
      · rw [List.length_drop]
        omega
      · exact fun c hc => hx c (List.mem_of_mem_drop hc)
  exact takes_sign_cons '.' hdigits

theorem takes_clockBody {hours sixtieths : Pattern} {H S : Text → Prop} (hhours : hours.Takes H)
    (hsixtieths : sixtieths.Takes S) :
    (all (clockBody hours sixtieths)).Takes fun x => ∃ c : ClockTime, c.Has H S ∧ x = c.written := by
  have hfraction : (all [opt SampleFormat.secondFraction]).Takes _ := takes_secondFraction.opt
  have hseconds : (all [opt (all [sign ':', sixtieths, opt SampleFormat.secondFraction])]).Takes _ :=
    (takes_sign_cons ':' (hsixtieths.all_cons hfraction)).opt
  refine (hhours.all_cons (takes_sign_cons ':' (hsixtieths.all_cons hseconds))).of_iff fun x => ?_
  constructor
  · rintro ⟨hour, _, rfl, hhour, _, rfl, minute, _, rfl, hminute, h⟩
    rcases h with ⟨_, rfl, second, _, rfl, hsecond, ⟨digits, rfl, hdigits⟩ | rfl⟩ | rfl
    · refine ⟨⟨hour, minute, some (second, some digits)⟩, ⟨hhour, hminute, ?_, ?_⟩, rfl⟩
      · rintro _ _ ⟨⟩
        exact hsecond
      · rintro _ _ ⟨⟩
        exact hdigits
    · refine ⟨⟨hour, minute, some (second, none)⟩, ⟨hhour, hminute, ?_, nofun⟩, rfl⟩
      rintro _ _ ⟨⟩
      exact hsecond
    · exact ⟨⟨hour, minute, none⟩, ⟨hhour, hminute, nofun, nofun⟩, rfl⟩
  · rintro ⟨⟨hour, minute, second⟩, ⟨hhour, hminute, hsecond, hfraction⟩, rfl⟩
    refine ⟨hour, _, rfl, hhour, _, rfl, minute, _, rfl, hminute, ?_⟩
    match second with
    | none => exact .inr rfl
    | some (seconds, none) =>
      exact .inl ⟨_, rfl, seconds, _, rfl, hsecond _ _ rfl, .inr rfl⟩
    | some (seconds, some digits) =>
      exact .inl ⟨_, rfl, seconds, _, rfl, hsecond _ _ rfl, .inl ⟨digits, rfl, hfraction _ _ rfl⟩⟩

theorem Has.mono {H S H' S' : Text → Prop} {c : ClockTime} (h : c.Has H S)
    (hhour : ∀ x, H x → H' x) (hsixtieth : ∀ x, S x → S' x) : c.Has H' S' :=
  ⟨hhour _ h.hour, hsixtieth _ h.minute, fun s f hs => hsixtieth s (h.second s f hs), h.fraction⟩

theorem isDigits_pair {c d : Char} (hc : isDigit c = true) (hd : isDigit d = true) :
    IsDigits 2 [c, d] := ⟨rfl, by simp [hc, hd]⟩

theorem InRange.hasDigits {c : ClockTime} (h : c.InRange) : c.HasDigits := by
  refine h.mono ?_ ?_
  · rintro _ ⟨c, d, rfl, ⟨rfl | rfl, hd⟩ | ⟨rfl, hd⟩⟩
    · exact isDigits_pair (by decide) hd
    · exact isDigits_pair (by decide) hd
    · exact isDigits_pair (by decide) (List.all_eq_true.mp (by decide) d hd)
  · rintro _ ⟨c, d, rfl, hc, hd⟩
    exact isDigits_pair (List.all_eq_true.mp (by decide) c hc) hd

/-! ## Times -/

def hourPattern : Pattern :=
  any [seq (oneOf "01") digit, seq (sign '2') (oneOf "0123")]

theorem takes_hourPattern : hourPattern.Takes IsHour := by
  refine (((takes_oneOf "01").seq takes_digit).alt
    ((takes_sign '2').seq (takes_oneOf "0123"))).of_iff fun x => ?_
  constructor
  · rintro (⟨_, _, rfl, ⟨c, hc, rfl⟩, d, hd, rfl⟩ | ⟨_, _, rfl, rfl, d, hd, rfl⟩)
    · exact ⟨c, d, rfl, .inl ⟨by simpa using hc, hd⟩⟩
    · exact ⟨'2', d, rfl, .inr ⟨rfl, hd⟩⟩
  · rintro ⟨c, d, rfl, ⟨hc, hd⟩ | ⟨rfl, hd⟩⟩
    · exact .inl ⟨[c], [d], rfl, ⟨c, by simpa using hc, rfl⟩, d, hd, rfl⟩
    · exact .inr ⟨['2'], [d], rfl, rfl, d, hd, rfl⟩

theorem takes_sixtieth : SampleFormat.sixtieth.Takes IsSixtieth := by
  refine ((takes_oneOf "012345").seq takes_digit).of_iff fun x => ?_
  constructor
  · rintro ⟨_, _, rfl, ⟨c, hc, rfl⟩, d, hd, rfl⟩
    exact ⟨c, d, rfl, hc, hd⟩
  · rintro ⟨c, d, rfl, hc, hd⟩
    exact ⟨[c], [d], rfl, ⟨c, hc, rfl⟩, d, hd, rfl⟩

/-- A text is accepted as a time exactly when it is a clock in range. -/
theorem accepts_time_iff (t : Text) :
    SampleFormat.accepts .time t = true ↔ ∃ c : ClockTime, c.InRange ∧ t = c.written := by
  have htakes := takes_clockBody takes_hourPattern takes_sixtieth
  show (all (start :: (clockBody hourPattern SampleFormat.sixtieth ++ [stop]))).occursIn t = true ↔ _
  rw [occursIn_iff_spells rfl]
  simp only [htakes t _, exists_and_left, exists_eq, and_true]

/-! ## Where a clock ends -/

/-- What cannot go on with a clock before it. -/
def follows (c : Char) : Bool := c == ':' || c == '.' || isDigit c

/-- A fraction ends where no digit follows. -/
theorem fractionText_append_inj {x y : Option Text} {z w : Text}
    (hx : ∀ digits, x = some digits → IsFraction digits)
    (hy : ∀ digits, y = some digits → IsFraction digits) (hz : Stops follows z)
    (hw : Stops follows w) (h : fractionText x ++ z = fractionText y ++ w) : x = y ∧ z = w := by
  have hstops : ∀ {z : Text}, Stops follows z → Stops isDigit z := by
    intro z hz c hc
    have hfollows := hz c hc
    simp only [follows, Bool.or_eq_false_iff] at hfollows
    exact hfollows.2
  match x, y, h with
  | none, none, h => exact ⟨rfl, h⟩
  | none, some digits, h =>
    change z = '.' :: (digits ++ w) at h
    rw [h] at hz
    exact absurd (hz '.' rfl) (by decide)
  | some digits, none, h =>
    change '.' :: (digits ++ z) = w at h
    rw [← h] at hw
    exact absurd (hw '.' rfl) (by decide)
  | some digits, some digits', h =>
    obtain ⟨rfl, rfl⟩ := append_inj_of_stops (hx _ rfl).2 (hy _ rfl).2 (hstops hz) (hstops hw)
      (List.cons.inj h).2
    exact ⟨rfl, rfl⟩

theorem written_append_inj {c c' : ClockTime} {z w : Text} (hc : c.HasDigits) (hc' : c'.HasDigits)
    (hz : Stops follows z) (hw : Stops follows w) (h : c.written ++ z = c'.written ++ w) :
    c = c' ∧ z = w := by
  obtain ⟨hour, minute, second⟩ := c
  obtain ⟨hour', minute', second'⟩ := c'
  simp only [written, List.append_assoc, List.cons_append] at h
  obtain ⟨rfl, hminutes⟩ := List.append_inj h (hc.hour.1.trans hc'.hour.1.symm)
  obtain ⟨rfl, hseconds⟩ :=
    List.append_inj (List.cons.inj hminutes).2 (hc.minute.1.trans hc'.minute.1.symm)
  match second, second', hseconds, hc, hc' with
  | none, none, h, _, _ => exact ⟨rfl, h⟩
  | none, some (seconds, fraction), h, _, _ =>
    change z = ':' :: (seconds ++ fractionText fraction ++ w) at h
    rw [h] at hz
    exact absurd (hz ':' rfl) (by decide)
  | some (seconds, fraction), none, h, _, _ =>
    change ':' :: (seconds ++ fractionText fraction ++ z) = w at h
    rw [← h] at hw
    exact absurd (hw ':' rfl) (by decide)
  | some (seconds, fraction), some (seconds', fraction'), h, hc, hc' =>
    simp only [secondText, List.cons_append, List.append_assoc] at h
    have hlength : seconds.length = seconds'.length :=
      (hc.second _ _ rfl).1.trans (hc'.second _ _ rfl).1.symm
    obtain ⟨rfl, hfractions⟩ := List.append_inj (List.cons.inj h).2 hlength
    obtain ⟨rfl, rfl⟩ := fractionText_append_inj
      (fun digits hx => hc.fraction seconds digits (by rw [hx]))
      (fun digits hx => hc'.fraction seconds digits (by rw [hx])) hz hw hfractions
    exact ⟨rfl, rfl⟩

end ClockTime
end SqlAudit
