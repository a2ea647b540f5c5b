import Mathlib.Data.List.Induction
import SqlAudit.Power
import SqlAudit.Text.Digit
import SqlAudit.Text.Numeral

/-!
Numbers as digits.  A sequence of digits is read as the number that it stands for, and a sequence of
a given length is the number that it stands for, filled up with zeros.
-/

namespace SqlAudit
namespace Text

/-! ## Reading -/

theorem toNat_of_isDigit {c : Char} (h : c.isDigit = true) : 48 ≤ c.toNat ∧ c.toNat ≤ 57 :=
  Char.isDigit_iff_toNat.mp h

theorem readDigits_of_isDigit {t : Text} (h : ∀ c ∈ t, c.isDigit = true) (value : Nat) :
    readDigits 10 decimalDigit? value t = some (Nat.ofDigitChars 10 t value) := by
  induction t generalizing value with
  | nil => rw [readDigits, Nat.ofDigitChars_nil]
  | cons c t ih =>
    have hc : decimalDigit? c = some (c.toNat - '0'.toNat) := by
      rw [decimalDigit?, if_pos (h c List.mem_cons_self)]
    rw [readDigits, hc, Nat.ofDigitChars_cons]
    exact ih (fun d hd => h d (List.mem_cons_of_mem _ hd)) _

theorem isDigit_of_readDigits {t : Text} {value n : Nat}
    (h : readDigits 10 decimalDigit? value t = some n) : ∀ c ∈ t, c.isDigit = true := by
  induction t generalizing value with
  | nil => simp
  | cons c t ih =>
    rw [readDigits, decimalDigit?] at h
    split at h
    · rename_i hc
      exact List.forall_mem_cons.mpr ⟨hc, ih h⟩
    · cases h

theorem decimal?_eq_some_iff {t : Text} {n : Nat} :
    decimal? t = some n ↔
      t ≠ [] ∧ (∀ c ∈ t, c.isDigit = true) ∧ Nat.ofDigitChars 10 t 0 = n := by
  rw [decimal?]
  cases t with
  | nil => simp
  | cons c rest =>
    rw [if_neg (by simp)]
    constructor
    · intro h
      have hdigits := isDigit_of_readDigits h
      rw [readDigits_of_isDigit hdigits] at h
      exact ⟨List.cons_ne_nil _ _, hdigits, Option.some.inj h⟩
    · rintro ⟨-, hdigits, rfl⟩
      exact readDigits_of_isDigit hdigits 0

/-- A digit that is read is a digit to patterns. -/
theorem isDigit_of_isDigit {c : Char} (h : c.isDigit = true) : isDigit c = true := by
  have hbounds := toNat_of_isDigit h
  have hascii : isAscii c = true := by
    rw [isAscii, Nat.blt_eq]
    omega
  rw [isDigit, if_pos hascii, h]

theorem isDigit_of_decimal? {t : Text} {n : Nat} (h : decimal? t = some n) :
    ∀ c ∈ t, isDigit c = true :=
  fun c hc => isDigit_of_isDigit ((decimal?_eq_some_iff.mp h).2.1 c hc)

/-! ## Digits of a fixed number of places -/

/-- A number in decimal, with zeros in front up to a number of digits. -/
def padded (width n : Nat) : Text := (Nat.toDigits 10 n).leftpad width '0'

theorem isDigit_of_mem_padded {width n : Nat} {c : Char} (h : c ∈ padded width n) :
    c.isDigit = true := by
  rw [padded, List.leftpad, List.mem_append, List.mem_replicate] at h
  rcases h with ⟨-, rfl⟩ | h
  · rfl
  · exact Nat.isDigit_of_mem_toDigits (by decide) (by decide) h

theorem length_padded {width n : Nat} (hwidth : 0 < width) (hn : n < tenTo width) :
    (padded width n).length = width := by
  have hle := (Nat.length_toDigits_le_iff (by decide) hwidth).mpr hn
  rw [padded, List.length_leftpad]
  exact Nat.max_eq_left hle

theorem ofDigitChars_padded (width n : Nat) : Nat.ofDigitChars 10 (padded width n) 0 = n := by
  have hzeros : ∀ k, Nat.ofDigitChars 10 (List.replicate k '0') 0 = 0 := by
    intro k
    induction k with
    | zero => rfl
    | succ k ih => rw [List.replicate_succ, Nat.ofDigitChars_cons]; exact ih
  rw [padded, List.leftpad, Nat.ofDigitChars_append, hzeros]
  exact Nat.ofDigitChars_ten_toDigits

/-- Digits of one number of places are told apart by the number that they stand for. -/
theorem eq_of_ofDigitChars_eq {x y : Text} (hx : ∀ c ∈ x, c.isDigit = true)
    (hy : ∀ c ∈ y, c.isDigit = true) (hlength : x.length = y.length)
    (h : Nat.ofDigitChars 10 x 0 = Nat.ofDigitChars 10 y 0) : x = y := by
  induction x using List.reverseRecOn generalizing y with
  | nil => exact (List.eq_nil_of_length_eq_zero hlength.symm).symm
  | append_singleton x c ih =>
    cases y using List.reverseRecOn with
    | nil => simp at hlength
    | append_singleton y d =>
      have hc := toNat_of_isDigit (hx c (by simp))
      have hd := toNat_of_isDigit (hy d (by simp))
      have hzero : '0'.toNat = 48 := rfl
      rw [Nat.ofDigitChars_append, Nat.ofDigitChars_append, Nat.ofDigitChars_cons,
        Nat.ofDigitChars_cons, Nat.ofDigitChars_nil, Nat.ofDigitChars_nil, hzero] at h
      -- The last digits are the remainders by ten, and what stands before them the quotients.
      have hlast : c = d := Char.toNat_inj.mp (by omega)
      have hfront : x = y := ih (fun e he => hx e (List.mem_append_left _ he))
        (fun e he => hy e (List.mem_append_left _ he)) (by simpa using hlength) (by omega)
      rw [hlast, hfront]

theorem ofDigitChars_lt {t : Text} (h : ∀ c ∈ t, c.isDigit = true) :
    Nat.ofDigitChars 10 t 0 < tenTo t.length := by
  induction t using List.reverseRecOn with
  | nil => decide
  | append_singleton t c ih =>
    have hc := toNat_of_isDigit (h c (by simp))
    have hzero : '0'.toNat = 48 := rfl
    have hlt := ih fun d hd => h d (List.mem_append_left _ hd)
    rw [List.length_append, List.length_singleton]
    show _ < tenTo t.length * 10
    rw [Nat.ofDigitChars_append, Nat.ofDigitChars_cons, Nat.ofDigitChars_nil, hzero]
    omega

/-- The texts of so many characters that are read as a number are the numbers of so many digits. -/
theorem decimal?_eq_some_iff_padded {width : Nat} (hwidth : 0 < width) {t : Text} {n : Nat} :
    t.length = width ∧ decimal? t = some n ↔ t = padded width n ∧ n < tenTo width := by
  rw [decimal?_eq_some_iff]
  constructor
  · rintro ⟨hlength, -, hdigits, rfl⟩
    have hlt : Nat.ofDigitChars 10 t 0 < tenTo width := hlength ▸ ofDigitChars_lt hdigits
    refine ⟨?_, hlt⟩
    apply eq_of_ofDigitChars_eq hdigits (fun c hc => isDigit_of_mem_padded hc)
    · rw [hlength, length_padded hwidth hlt]
    · rw [ofDigitChars_padded]
  · rintro ⟨rfl, hlt⟩
    have hlength := length_padded hwidth hlt
    refine ⟨hlength, ?_, fun c hc => isDigit_of_mem_padded hc, ofDigitChars_padded width n⟩
    exact List.ne_nil_of_length_pos (by omega)

end Text
end SqlAudit
