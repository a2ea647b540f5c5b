import SqlAudit.DataType.SampleFormat
import SqlAudit.Proofs.Pattern.Spelling
import SqlAudit.Proofs.Text.Numeral

/-!
Formats along the hierarchy of types.  What has a narrow format has the wider ones as well.  The one
exception are whole numbers with two signs: an integer is read behind a plus sign that may stand
before its own sign, while a decimal number has one sign at most.
-/

namespace SqlAudit
namespace SampleFormat

open Text Pattern

/-! ## Decimal numbers -/

/-- No sign, or one. -/
def IsSign (x : Text) : Prop := x = [] ∨ x = ['+'] ∨ x = ['-']

/-- Digits of any script, or a point with a digit on one of its sides. -/
def IsNumeral (x : Text) : Prop :=
  (x ≠ [] ∧ ∀ c ∈ x, isDigit c = true) ∨
    ∃ whole fraction, x = whole ++ '.' :: fraction ∧ (whole ≠ [] ∨ fraction ≠ []) ∧
      (∀ c ∈ whole, isDigit c = true) ∧ ∀ c ∈ fraction, isDigit c = true

theorem takes_opt_plusMinus : (opt plusMinus).Takes IsSign := by
  refine (takes_oneOf "+-").opt.of_iff fun x => ?_
  simp only [String.reduceToList, List.mem_cons, List.not_mem_nil, or_false, IsSign]
  constructor
  · rintro (⟨c, rfl | rfl, rfl⟩ | rfl)
    · exact .inr (.inl rfl)
    · exact .inr (.inr rfl)
    · exact .inl rfl
  · rintro (rfl | rfl | rfl)
    · exact .inr rfl
    · exact .inl ⟨'+', .inl rfl, rfl⟩
    · exact .inl ⟨'-', .inr rfl, rfl⟩

theorem takes_numeral : numeral.Takes IsNumeral := by
  have hfraction : (all [many isDigit]).Takes _ := takes_many isDigit
  have hpoint : (all [digits]).Takes _ := takes_many1 isDigit
  refine (((takes_many1 isDigit).all_cons ((takes_sign '.').opt.all_cons hfraction)).alt
    (takes_sign_cons '.' hpoint)).of_iff fun x => ?_
  constructor
  · rintro (⟨whole, _, rfl, ⟨hne, hwhole⟩, _, fraction, rfl, rfl | rfl, hfraction⟩ |
      ⟨fraction, rfl, hne, hfraction⟩)
    · exact .inr ⟨whole, fraction, rfl, .inl hne, hwhole, hfraction⟩
    · exact .inl ⟨by simp [hne], List.forall_mem_append.mpr ⟨hwhole, hfraction⟩⟩
    · exact .inr ⟨[], fraction, rfl, .inr hne, by simp, hfraction⟩
  · rintro (⟨hne, hx⟩ | ⟨whole, fraction, rfl, hne, hwhole, hfraction⟩)
    · exact .inl ⟨x, [], by simp, ⟨hne, hx⟩, [], [], rfl, .inr rfl, by simp⟩
    · cases whole with
      | nil => exact .inr ⟨fraction, rfl, hne.resolve_left (by simp), hfraction⟩
      | cons c more =>
        exact .inl ⟨c :: more, '.' :: fraction, rfl, ⟨List.cons_ne_nil _ _, hwhole⟩, ['.'],
          fraction, rfl, .inl rfl, hfraction⟩

theorem accepts_decimal_iff (t : Text) :
    accepts .decimal t = true ↔ ∃ sign x, t = sign ++ x ∧ IsSign sign ∧ IsNumeral x := by
  have hnumeral : (all [numeral]).Takes IsNumeral := takes_numeral
  have htakes := takes_opt_plusMinus.all_cons hnumeral
  show (all (start :: ([opt plusMinus, numeral] ++ [stop]))).occursIn t = true ↔ _
  rw [occursIn_iff_spells rfl]
  simp only [htakes t _, exists_and_left, exists_eq, and_true]

/-- A decimal number is a floating-point number without an exponent. -/
theorem accepts_float_of_decimal {t : Text} (h : accepts .decimal t = true) :
    accepts .float t = true := by
  change (all (start :: ([opt plusMinus, numeral] ++ [stop]))).occursIn t = true at h
  show (all (start :: ([any [all ([opt plusMinus, numeral] ++
    [opt (all [word "e", opt plusMinus, digits])]),
    all [opt plusMinus, word "inf", opt (word "inity")], word "nan"]] ++ [stop]))).occursIn t = true
  rw [occursIn_iff_spells rfl] at h ⊢
  obtain ⟨parts, hparts⟩ := h
  have hexponent : (all [opt (all [word "e", opt plusMinus, digits])]).Spells [] [] :=
    .inr ⟨rfl, rfl⟩
  refine ⟨parts, .inl ((spells_all_append _ _).mpr ?_)⟩
  exact ⟨t, [], parts, [], (List.append_nil t).symm, rfl, hparts, hexponent⟩

theorem IsNumeral.exists_cons {x : Text} (h : IsNumeral x) :
    ∃ c rest, x = c :: rest ∧ (isDigit c = true ∨ c = '.') := by
  rcases h with ⟨hne, hx⟩ | ⟨whole, fraction, rfl, -, hwhole, -⟩
  · obtain ⟨c, rest, rfl⟩ := List.exists_cons_of_ne_nil hne
    exact ⟨c, rest, rfl, .inl (hx c List.mem_cons_self)⟩
  · cases whole with
    | nil => exact ⟨'.', fraction, rfl, .inr rfl⟩
    | cons c more => exact ⟨c, _, rfl, .inl (hwhole c List.mem_cons_self)⟩

/-! ## Whole numbers -/

/-- A plus sign with another sign behind it. -/
def HasTwoSigns (t : Text) : Prop :=
  ∃ sign rest, t = '+' :: sign :: rest ∧ (sign = '+' ∨ sign = '-')

theorem not_hasTwoSigns_of_decimal {t : Text} (h : accepts .decimal t = true) :
    ¬ HasTwoSigns t := by
  rintro ⟨second, rest, rfl, hsecond⟩
  obtain ⟨sign, x, ht, hsign, hx⟩ := (accepts_decimal_iff _).mp h
  obtain ⟨c, more, rfl, hc⟩ := hx.exists_cons
  rcases hsign with rfl | rfl | rfl
  · obtain ⟨rfl, -⟩ := List.cons.inj ht
    exact absurd hc (by decide)
  · obtain ⟨rfl, -⟩ := List.cons.inj (List.cons.inj ht).2
    rcases hsecond with rfl | rfl
    · exact absurd hc (by decide)
    · exact absurd hc (by decide)
  · exact absurd (List.cons.inj ht).1 (by decide)

theorem exists_of_signed? {first last n : Int} {t : Text} (h : signed? first last t = some n) :
    ∃ sign digits k, t = sign ++ digits ∧ IsSign sign ∧ decimal? digits = some k := by
  obtain ⟨hvalue, -⟩ := Option.filter_eq_some_iff.mp h
  split at hvalue
  · rename_i rest
    obtain ⟨k, hk, -⟩ := Option.map_eq_some_iff.mp hvalue
    exact ⟨['+'], rest, k, rfl, .inr (.inl rfl), hk⟩
  · rename_i rest
    obtain ⟨k, hk, -⟩ := Option.map_eq_some_iff.mp hvalue
    exact ⟨['-'], rest, k, rfl, .inr (.inr rfl), hk⟩
  · obtain ⟨k, hk, -⟩ := Option.map_eq_some_iff.mp hvalue
    exact ⟨[], t, k, rfl, .inl rfl, hk⟩

theorem accepts_decimal_of_digits {sign digits : Text} {k : Nat} (hsign : IsSign sign)
    (h : decimal? digits = some k) : accepts .decimal (sign ++ digits) = true :=
  (accepts_decimal_iff _).mpr
    ⟨sign, digits, rfl, hsign, .inl ⟨(decimal?_eq_some_iff.mp h).1, isDigit_of_decimal? h⟩⟩

/-- A whole number is a decimal number unless it has two signs. -/
theorem accepts_decimal_iff_of_integer {first last : Int} {t : Text}
    (h : accepts (.integer first last) t = true) :
    accepts .decimal t = true ↔ ¬ HasTwoSigns t := by
  refine ⟨not_hasTwoSigns_of_decimal, fun hone => ?_⟩
  obtain ⟨n, hread, -⟩ := (Option.any_eq_true _ _).mp h
  unfold readInteger? at hread
  obtain ⟨sign, digits, k, hdigits, hsign, hk⟩ := exists_of_signed? hread
  -- Behind a plus sign the digits may have a sign of their own.
  split at hdigits
  · subst hdigits
    rcases hsign with rfl | rfl | rfl
    · exact accepts_decimal_of_digits (.inr (.inl rfl) : IsSign ['+']) hk
    · exact absurd ⟨'+', digits, rfl, .inl rfl⟩ hone
    · exact absurd ⟨'-', digits, rfl, .inr rfl⟩ hone
  · subst hdigits
    exact accepts_decimal_of_digits hsign hk

/-! ## The hierarchy -/

/-- The formats that are next to each other in the hierarchy of types, the narrower one first. -/
inductive Narrows : SampleFormat → SampleFormat → Prop
  | range {first last first' last' : Int} (hfirst : first' ≤ first) (hlast : last ≤ last') :
      Narrows (.integer first last) (.integer first' last')
  | decimal (first last : Int) : Narrows (.integer first last) .decimal
  | float : Narrows .decimal .float
  | dateTime : Narrows .dateTimeZone .dateTime
  | text {longest longest' : Nat} (h : longest ≤ longest') :
      Narrows (.text (some longest)) (.text (some longest'))
  | anyText (longest : Option Nat) : Narrows (.text longest) (.text none)

theorem accepts_integer_of_range {first last first' last' : Int} (hfirst : first' ≤ first)
    (hlast : last ≤ last') {t : Text} (h : accepts (.integer first last) t = true) :
    accepts (.integer first' last') t = true := by
  obtain ⟨n, hread, hn⟩ := (Option.any_eq_true _ _).mp h
  rw [Bool.and_eq_true, decide_eq_true_eq, decide_eq_true_eq] at hn
  refine (Option.any_eq_true _ _).mpr ⟨n, hread, ?_⟩
  rw [Bool.and_eq_true, decide_eq_true_eq, decide_eq_true_eq]
  omega

theorem accepts_dateTime_of_zone {t : Text} (h : accepts .dateTimeZone t = true) :
    accepts .dateTime t = true := by
  obtain ⟨m, hm, haccepts⟩ := (Option.any_eq_true _ _).mp h
  rw [Bool.and_eq_true] at haccepts
  refine (Option.any_eq_true _ _).mpr ⟨m, hm, ?_⟩
  rw [haccepts.1]
  rfl

theorem accepts_text_of_longer {longest longest' : Nat} (hlonger : longest ≤ longest') {t : Text}
    (h : accepts (.text (some longest)) t = true) : accepts (.text (some longest')) t = true :=
  decide_eq_true (Nat.le_trans (of_decide_eq_true h) hlonger)

/-- What has a format has the next wider one as well, but for whole numbers with two signs, which
are no decimal numbers.  Nothing is JSON and a list in braces at once. -/
theorem accepts_of_narrows (t : Text) :
    (∀ format wider, Narrows format wider → format.accepts t = true →
      (wider.accepts t = true ↔ ¬ (wider = .decimal ∧ HasTwoSigns t))) ∧
    ¬ (accepts .json t = true ∧ accepts .array t = true) := by
  constructor
  · intro format wider hnarrows h
    cases hnarrows with
    | range hfirst hlast => simpa using accepts_integer_of_range hfirst hlast h
    | decimal first last => simpa using accepts_decimal_iff_of_integer h
    | float => simpa using accepts_float_of_decimal h
    | dateTime => simpa using accepts_dateTime_of_zone h
    | text hlonger => simpa using accepts_text_of_longer hlonger h
    | anyText longest => simp [accepts]
  · rintro ⟨hjson, harray⟩
    have hjson : acceptsJson t = true := hjson
    simp [accepts, hjson] at harray

/-- An integer in a range around zero that is no decimal number. -/
theorem accepts_of_narrows_two_signs :
    accepts (.integer (-128) 255) "++7".toList = true ∧ accepts .decimal "++7".toList = false := by
  have hinteger : accepts (.integer (-128) 255) "++7".toList = true := by decide
  have hdecimal := (accepts_of_narrows "++7".toList).1 _ _ (.decimal (-128) 255) hinteger
  refine ⟨hinteger, Bool.eq_false_iff.mpr fun h => ?_⟩
  exact hdecimal.mp h ⟨rfl, '+', ['7'], rfl, .inl rfl⟩

end SampleFormat
end SqlAudit
