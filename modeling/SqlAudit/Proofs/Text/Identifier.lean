import SqlAudit.Pattern.Vocabulary

/-!
Identifiers: unaccented letters, digits and underscores, no digit first.  Everything that separates
names in a definition is no character of an identifier.
-/

namespace SqlAudit
namespace Text

def isIdentifierChar (c : Char) : Bool := c.isAlphanum || c == '_'

theorem isAlpha_iff (c : Char) : c.isAlpha = true ↔
    65 ≤ c.toNat ∧ c.toNat ≤ 90 ∨ 97 ≤ c.toNat ∧ c.toNat ≤ 122 := by
  have hupper : c.isUpper = true ↔ 65 ≤ c.toNat ∧ c.toNat ≤ 90 := by
    show decide (c.val ≥ 'A'.val ∧ c.val ≤ 'Z'.val) = true ↔ _
    rw [decide_eq_true_iff, ge_iff_le, UInt32.le_iff_toNat_le, UInt32.le_iff_toNat_le]
    rfl
  have hlower : c.isLower = true ↔ 97 ≤ c.toNat ∧ c.toNat ≤ 122 := by
    show (decide (c.val ≥ 'a'.val) && decide (c.val ≤ 'z'.val)) = true ↔ _
    rw [Bool.and_eq_true, decide_eq_true_iff, decide_eq_true_iff, ge_iff_le,
      UInt32.le_iff_toNat_le, UInt32.le_iff_toNat_le]
    rfl
  show (c.isUpper || c.isLower) = true ↔ _
  rw [Bool.or_eq_true, hupper, hlower]

theorem isIdentifierChar_iff (c : Char) : isIdentifierChar c = true ↔
    48 ≤ c.toNat ∧ c.toNat ≤ 57 ∨ 65 ≤ c.toNat ∧ c.toNat ≤ 90 ∨ 97 ≤ c.toNat ∧ c.toNat ≤ 122 ∨
      c.toNat = 95 := by
  have hunderscore : c = '_' ↔ c.toNat = 95 := by
    constructor
    · rintro rfl
      rfl
    · intro h
      rw [← Char.ofNat_toNat c, h]
  simp only [isIdentifierChar, Char.isAlphanum, isAlpha_iff, Char.isDigit, Bool.or_eq_true,
    beq_iff_eq, Bool.and_eq_true, decide_eq_true_eq, ge_iff_le, UInt32.le_iff_toNat_le, hunderscore]
  show ((65 ≤ c.toNat ∧ c.toNat ≤ 90 ∨ 97 ≤ c.toNat ∧ c.toNat ≤ 122) ∨
    48 ≤ c.toNat ∧ c.toNat ≤ 57) ∨ c.toNat = 95 ↔ _
  omega

theorem toNat_toLower (c : Char) :
    c.toLower.toNat = if 65 ≤ c.toNat ∧ c.toNat ≤ 90 then c.toNat + 32 else c.toNat := by
  have hiff : (c.val ≥ 'A'.val ∧ c.val ≤ 'Z'.val) ↔ 65 ≤ c.toNat ∧ c.toNat ≤ 90 := by
    rw [ge_iff_le, UInt32.le_iff_toNat_le, UInt32.le_iff_toNat_le]
    rfl
  delta Char.toLower
  by_cases h : 65 ≤ c.toNat ∧ c.toNat ≤ 90
  · rw [dif_pos (hiff.mpr h), if_pos h]
    show (c.val + ('a'.val - 'A'.val)).toNat = c.val.toNat + 32
    have hlast : c.val.toNat ≤ 90 := h.2
    rw [UInt32.toNat_add]
    show (c.val.toNat + 32) % 4294967296 = _
    omega
  · rw [dif_neg (fun hval => h (hiff.mp hval)), if_neg h]

theorem toNat_toUpper (c : Char) :
    c.toUpper.toNat = if 97 ≤ c.toNat ∧ c.toNat ≤ 122 then c.toNat - 32 else c.toNat := by
  have hiff : ('a'.val ≤ c.val ∧ c.val ≤ 'z'.val) ↔ 97 ≤ c.toNat ∧ c.toNat ≤ 122 := by
    rw [UInt32.le_iff_toNat_le, UInt32.le_iff_toNat_le]
    rfl
  delta Char.toUpper
  by_cases h : 97 ≤ c.toNat ∧ c.toNat ≤ 122
  · rw [dif_pos (hiff.mpr h), if_pos h]
    show (c.val + ('A'.val - 'a'.val)).toNat = c.val.toNat - 32
    have hfirst : 97 ≤ c.val.toNat := h.1
    have hlast : c.val.toNat ≤ 122 := h.2
    rw [UInt32.toNat_add]
    show (c.val.toNat + 4294967264) % 4294967296 = _
    omega
  · rw [dif_neg (fun hval => h (hiff.mp hval)), if_neg h]

theorem toLower_toUpper (c : Char) : c.toUpper.toLower = c.toLower := by
  have hcode : c.toUpper.toLower.toNat = c.toLower.toNat := by
    rw [toNat_toLower, toNat_toLower, toNat_toUpper]
    by_cases h : 97 ≤ c.toNat ∧ c.toNat ≤ 122
    · rw [if_pos h, if_pos (by omega), if_neg (by omega)]
      omega
    · rw [if_neg h]
  rw [← Char.ofNat_toNat c.toUpper.toLower, hcode, Char.ofNat_toNat]

theorem isAscii_of_isIdentifierChar {c : Char} (h : isIdentifierChar c = true) :
    isAscii c = true := by
  rw [isIdentifierChar_iff] at h
  rw [isAscii, Nat.blt_eq]
  omega

theorem isWordChar_of_isIdentifierChar {c : Char} (h : isIdentifierChar c = true) :
    isWordChar c = true := by
  rw [isWordChar, if_pos (isAscii_of_isIdentifierChar h)]
  exact h

theorem isWordChar_eq_false_of_isBlank {c : Char} (h : isBlank c = true) :
    isWordChar c = false := by
  rw [isBlank] at h
  rw [isWordChar]
  by_cases hascii : isAscii c = true
  · rw [if_pos hascii] at h ⊢
    simp only [Bool.or_eq_true, beq_iff_eq, Bool.and_eq_true, Nat.ble_eq] at h
    have hcode : c.toNat = 32 ∨ 9 ≤ c.toNat ∧ c.toNat ≤ 13 := by
      rcases h with rfl | h
      · exact .inl rfl
      · exact .inr h
    rw [Bool.eq_false_iff]
    intro hword
    have hchar := (isIdentifierChar_iff c).mp hword
    omega
  · rw [if_neg hascii] at h ⊢
    -- The blanks beyond the seven-bit ones are few; each is looked up in the table of word
    -- characters.
    have hcodes : ∀ n ∈ [0x85, 0xA0, 0x1680, 0x2000, 0x2001, 0x2002, 0x2003, 0x2004, 0x2005, 0x2006,
        0x2007, 0x2008, 0x2009, 0x200A, 0x2028, 0x2029, 0x202F, 0x205F, 0x3000],
        inRanges wordRanges n = false := by decide +kernel
    apply hcodes
    simp only [inRanges, blankRanges, List.any_cons, List.any_nil, Bool.or_eq_true,
      Bool.and_eq_true, Nat.ble_eq, Bool.or_false] at h
    simp only [List.mem_cons, List.not_mem_nil, or_false]
    omega

theorem isBlank_eq_false_of_isWordChar {c : Char} (h : isWordChar c = true) :
    isBlank c = false := by
  rw [Bool.eq_false_iff]
  intro hblank
  rw [isWordChar_eq_false_of_isBlank hblank] at h
  cases h

theorem isBlank_eq_false_of_isIdentifierChar {c : Char} (h : isIdentifierChar c = true) :
    isBlank c = false :=
  isBlank_eq_false_of_isWordChar (isWordChar_of_isIdentifierChar h)

theorem isNameChar_of_isIdentifierChar {c : Char} (h : isIdentifierChar c = true) :
    Pattern.isNameChar c = true := by
  rw [Pattern.isNameChar, isWordChar_of_isIdentifierChar h, Bool.true_or]

theorem isIdentifierChar_of_mem_toDigits {n : Nat} {c : Char} (h : c ∈ Nat.toDigits 10 n) :
    isIdentifierChar c = true := by
  rw [isIdentifierChar, Char.isAlphanum, Nat.isDigit_of_mem_toDigits (by decide) (by decide) h,
    Bool.or_true, Bool.true_or]

theorem toDigits_inj {m n : Nat} (h : Nat.toDigits 10 m = Nat.toDigits 10 n) : m = n := by
  calc
    m = Nat.ofDigitChars 10 (Nat.toDigits 10 m) 0 := Nat.ofDigitChars_ten_toDigits.symm
    _ = Nat.ofDigitChars 10 (Nat.toDigits 10 n) 0 := by rw [h]
    _ = n := Nat.ofDigitChars_ten_toDigits

/-- What matches a character of an identifier up to case is a word character. -/
theorem isWordChar_of_sameLetter {letter c : Char} (hletter : isIdentifierChar letter = true)
    (h : Pattern.sameLetter letter c = true) : isWordChar c = true := by
  simp only [Pattern.sameLetter, Bool.or_eq_true, beq_iff_eq, Bool.and_eq_true] at h
  have hcode : ∀ {n}, c.toNat = n → c = Char.ofNat n := by
    rintro n rfl
    exact (Char.ofNat_toNat c).symm
  rcases h with (h | ⟨h, -⟩) | ⟨h, -⟩
  · apply isWordChar_of_isIdentifierChar
    have hlower := congrArg Char.toNat h
    rw [toNat_toLower, toNat_toLower] at hlower
    rw [isIdentifierChar_iff] at hletter ⊢
    split at hlower <;> split at hlower <;> omega
  · rw [hcode h]
    decide +kernel
  · rw [hcode h]
    decide +kernel

/-- The case of a letter has no part in being a word character. -/
theorem isWordChar_of_toLower_eq {c d : Char} (h : c.toLower = d.toLower)
    (hd : isWordChar d = true) : isWordChar c = true := by
  have hcode := congrArg Char.toNat h
  rw [toNat_toLower, toNat_toLower] at hcode
  by_cases hsame : c.toNat = d.toNat
  · rwa [← Char.ofNat_toNat c, hsame, Char.ofNat_toNat]
  · apply isWordChar_of_isIdentifierChar
    rw [isIdentifierChar_iff]
    split at hcode <;> split at hcode <;> omega

/-- On the characters of identifiers, letters are the same if they are so in lower case. -/
theorem sameLetter_eq_of_isIdentifierChar {c : Char} (hc : isIdentifierChar c = true)
    (letter : Char) : Pattern.sameLetter letter c = (c.toLower == letter.toLower) := by
  have hascii := isAscii_of_isIdentifierChar hc
  rw [isAscii, Nat.blt_eq] at hascii
  have hlong : (c.toNat == 0x17F) = false := by
    rw [beq_eq_false_iff_ne]
    omega
  have hkelvin : (c.toNat == 0x212A) = false := by
    rw [beq_eq_false_iff_ne]
    omega
  rw [Pattern.sameLetter, hlong, hkelvin, Bool.false_and, Bool.false_and, Bool.or_false,
    Bool.or_false]

/-! ## Identifiers -/

def isIdentifier : Text → Bool
  | [] => false
  | c :: rest => (c.isAlpha || c == '_') && rest.all isIdentifierChar

end Text

structure Identifier where
  text : Text
  valid : text.isIdentifier = true
  deriving DecidableEq

namespace Identifier

open Text

variable (x : Identifier)

def name : String := String.ofList x.text

theorem exists_cons : ∃ c rest, x.text = c :: rest ∧ isIdentifierChar c = true ∧
    ∀ d ∈ rest, isIdentifierChar d = true := by
  obtain ⟨text, hvalid⟩ := x
  cases text with
  | nil => cases hvalid
  | cons c rest =>
    rw [isIdentifier, Bool.and_eq_true, List.all_eq_true] at hvalid
    refine ⟨c, rest, rfl, ?_, hvalid.2⟩
    rw [isIdentifierChar, Char.isAlphanum]
    have hfirst := hvalid.1
    cases hunderscore : c == '_' with
    | true => rw [Bool.or_true]
    | false =>
      rw [hunderscore, Bool.or_false] at hfirst
      rw [hfirst]
      rfl

theorem ne_nil : x.text ≠ [] := by
  obtain ⟨c, rest, hx, -⟩ := x.exists_cons
  rw [hx]
  exact List.cons_ne_nil c rest

theorem isIdentifierChar_of_mem {c : Char} (h : c ∈ x.text) : isIdentifierChar c = true := by
  obtain ⟨d, rest, hx, hd, hrest⟩ := x.exists_cons
  rw [hx] at h
  rcases List.mem_cons.mp h with rfl | h
  · exact hd
  · exact hrest c h

theorem isWordChar_of_mem {c : Char} (h : c ∈ x.text) : isWordChar c = true :=
  isWordChar_of_isIdentifierChar (x.isIdentifierChar_of_mem h)

theorem isNameChar_of_mem {c : Char} (h : c ∈ x.text) : Pattern.isNameChar c = true :=
  isNameChar_of_isIdentifierChar (x.isIdentifierChar_of_mem h)

theorem isBlank_of_mem {c : Char} (h : c ∈ x.text) : isBlank c = false :=
  isBlank_eq_false_of_isIdentifierChar (x.isIdentifierChar_of_mem h)

theorem not_mem {c : Char} (hc : isIdentifierChar c = false) : c ∉ x.text := by
  intro h
  rw [x.isIdentifierChar_of_mem h] at hc
  cases hc

end Identifier

/-! ## Names up to case -/

theorem sameName_refl (x : String) : sameName x x = true := by
  rw [sameName, Text.sameLetters, beq_self_eq_true]

theorem sameName_trans {x y z : String} (hxy : sameName x y = true) (hyz : sameName y z = true) :
    sameName x z = true := by
  simp only [sameName, Text.sameLetters, beq_iff_eq] at *
  exact hxy.trans hyz

theorem sameName_symm {x y : String} (h : sameName x y = true) : sameName y x = true := by
  simp only [sameName, Text.sameLetters, beq_iff_eq] at *
  exact h.symm

theorem sameName_comm (x y : String) : sameName x y = sameName y x :=
  Bool.eq_iff_iff.mpr ⟨sameName_symm, sameName_symm⟩

theorem sameName_congr_right {y z : String} (h : sameName y z = true) (x : String) :
    sameName x y = sameName x z := by
  simp only [sameName, Text.sameLetters, beq_iff_eq] at *
  rw [h]

end SqlAudit
