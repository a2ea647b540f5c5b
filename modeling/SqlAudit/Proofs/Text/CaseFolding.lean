import SqlAudit.Proofs.Text.Identifier
import SqlAudit.Text.LowerCase

/-!
Texts that agree up to the case of unaccented letters have one lower-case form.  A capital sigma is
lowered by what stands around it, but there the case of a letter makes no difference.
-/

namespace SqlAudit
namespace Text

/-- Characters that agree up to case are equal, or both are unaccented letters. -/
theorem eq_or_isAlpha_of_toLower_eq {c d : Char} (h : c.toLower = d.toLower) :
    c = d ∨ c.isAlpha = true ∧ d.isAlpha = true := by
  have hcode := congrArg Char.toNat h
  rw [toNat_toLower, toNat_toLower] at hcode
  rw [isAlpha_iff, isAlpha_iff]
  by_cases hsame : c.toNat = d.toNat
  · left
    rw [← Char.ofNat_toNat c, hsame, Char.ofNat_toNat]
  · right
    split at hcode <;> split at hcode <;> omega

theorem isAscii_of_isAlpha {c : Char} (h : c.isAlpha = true) : isAscii c = true := by
  rw [isAlpha_iff] at h
  rw [isAscii, Nat.blt_eq]
  omega

section

variable {c d : Char} (h : c.toLower = d.toLower)

include h

theorem isCased_congr : isCased c = isCased d := by
  rcases eq_or_isAlpha_of_toLower_eq h with rfl | ⟨hc, hd⟩
  · rfl
  · rw [isCased, isCased, if_pos (isAscii_of_isAlpha hc), if_pos (isAscii_of_isAlpha hd), hc, hd]

theorem isCaseIgnorable_congr : isCaseIgnorable c = isCaseIgnorable d := by
  have hletter : ∀ {e : Char}, e.isAlpha = true → isCaseIgnorable e = false := by
    intro e he
    have hne : ∀ sign : Char, sign.isAlpha = false → e ≠ sign := by
      rintro sign hsign rfl
      rw [he] at hsign
      cases hsign
    rw [isCaseIgnorable, if_pos (isAscii_of_isAlpha he)]
    simp [hne '\x27' rfl, hne '.' rfl, hne ':' rfl, hne '^' rfl, hne '\x60' rfl]
  rcases eq_or_isAlpha_of_toLower_eq h with rfl | ⟨hc, hd⟩
  · rfl
  · rw [hletter hc, hletter hd]

theorem lowerOf_congr : lowerOf c = lowerOf d := by
  rcases eq_or_isAlpha_of_toLower_eq h with rfl | ⟨hc, hd⟩
  · rfl
  · rw [lowerOf, lowerOf, if_pos (isAscii_of_isAlpha hc), if_pos (isAscii_of_isAlpha hd), h]

theorem toNat_beq_sigma_congr : (c.toNat == 0x3A3) = (d.toNat == 0x3A3) := by
  rcases eq_or_isAlpha_of_toLower_eq h with rfl | ⟨hc, hd⟩
  · rfl
  · rw [isAlpha_iff] at hc hd
    have hc' : (c.toNat == 0x3A3) = false := by
      rw [beq_eq_false_iff_ne]
      omega
    have hd' : (d.toNat == 0x3A3) = false := by
      rw [beq_eq_false_iff_ne]
      omega
    rw [hc', hd']

end

theorem meetsCased_congr {t u : Text} (h : t.map Char.toLower = u.map Char.toLower) :
    meetsCased t = meetsCased u := by
  induction t generalizing u with
  | nil => rw [List.map_eq_nil_iff.mp (Eq.symm h)]
  | cons c t ih =>
    cases u with
    | nil => cases h
    | cons d u =>
      obtain ⟨hc, hrest⟩ := List.cons.inj h
      have hignored := isCaseIgnorable_congr hc
      by_cases hd : isCaseIgnorable d = true
      · have hskip := ih hrest
        rw [meetsCased, meetsCased] at hskip ⊢
        rwa [List.dropWhile_cons_of_pos (hignored.trans hd), List.dropWhile_cons_of_pos hd]
      · rw [meetsCased, meetsCased, List.dropWhile_cons_of_neg (by rwa [hignored]),
          List.dropWhile_cons_of_neg hd]
        exact isCased_congr hc

theorem lowerFrom_congr {before before' t u : Text}
    (hbefore : before.map Char.toLower = before'.map Char.toLower)
    (h : t.map Char.toLower = u.map Char.toLower) : lowerFrom before t = lowerFrom before' u := by
  induction t generalizing before before' u with
  | nil => rw [List.map_eq_nil_iff.mp (Eq.symm h), lowerFrom, lowerFrom]
  | cons c t ih =>
    cases u with
    | nil => cases h
    | cons d u =>
      obtain ⟨hc, hrest⟩ := List.cons.inj h
      have hread : (c :: before).map Char.toLower = (d :: before').map Char.toLower := by
        rw [List.map_cons, List.map_cons, hc, hbefore]
      rw [lowerFrom, lowerFrom, ih hread hrest, toNat_beq_sigma_congr hc, lowerOf_congr hc,
        meetsCased_congr hbefore, meetsCased_congr hrest]

theorem lower_congr {t u : Text} (h : sameLetters t u = true) : lower t = lower u :=
  lowerFrom_congr rfl (beq_iff_eq.mp h)

end Text

theorem lower_eq_of_sameName {x y : String} (h : sameName x y = true) :
    Text.lower x.toList = Text.lower y.toList := Text.lower_congr h

end SqlAudit
