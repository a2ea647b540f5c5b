import Mathlib

/-!
Single-precision numbers.  Positive ones are ordered as their bits are, since the bits count up the
mantissas and, each time these are through, the exponent.  And a share of nothing is not positive.
-/

namespace SqlAudit
namespace SinglePrecision

open Float.Model (Format UnpackedFloat)
open Float.Model.UnpackedFloat

/-! ## The parts of the bits -/

theorem toNat_unpackMantissa (b : BitVec Format.binary32.numBits) :
    (unpackMantissa b).toNat = b.toNat % 2 ^ 23 := by
  simp only [unpackMantissa, BitVec.toNat_cast, BitVec.extractLsb_toNat, Nat.shiftRight_zero]

theorem toNat_unpackExponent (b : BitVec Format.binary32.numBits) :
    (unpackExponent b).toNat = b.toNat / 2 ^ 23 % 2 ^ 8 := by
  simp only [unpackExponent, BitVec.toNat_cast, BitVec.extractLsb_toNat, Nat.shiftRight_eq_div_pow]

theorem toNat_unpackSign (b : BitVec Format.binary32.numBits) :
    (unpackSign b).toNat = b.toNat / 2 ^ 31 % 2 := by
  simp only [unpackSign, BitVec.toNat_cast, BitVec.extractLsb_toNat, Nat.shiftRight_eq_div_pow]

/-- The mantissa of a normal number has one more bit than is kept. -/
theorem toNat_one_append (m : BitVec 23) : (1#1 ++ m).toNat = 2 ^ 23 + m.toNat := by
  rw [BitVec.toNat_append, ← Nat.shiftLeft_add_eq_or_of_lt m.isLt]
  rfl

/-! ## Order -/

theorem lt_iff {x y : Float32} :
    x < y ↔ x.toModel.unpack.compare y.toModel.unpack = some .lt := by
  change decide (x.toModel.unpack.lt y.toModel.unpack = true) = true ↔ _
  rw [decide_eq_true_iff, UnpackedFloat.lt, beq_iff_eq]

theorem le_iff {x y : Float32} :
    x ≤ y ↔ ∃ order, x.toModel.unpack.compare y.toModel.unpack = some order ∧
      order.isLE = true := by
  change decide (x.toModel.unpack.le y.toModel.unpack = true) = true ↔ _
  rw [decide_eq_true_iff, UnpackedFloat.le, Option.any_eq_true]

theorem unpack_zero : (0 : Float32).toModel.unpack = .zero .positive := rfl

/-- A positive number and the number that its bits are.  Only the least numbers have a mantissa
that does not use all its bits. -/
inductive HasBits : UnpackedFloat → Nat → Prop where
  | finite {m k n : Nat} {e : Int} (hm : 0 < m) : e = k - 149 → n = k * 2 ^ 23 + m →
      m < 2 ^ 24 → (2 ^ 23 ≤ m ∨ k = 0) → n < 255 * 2 ^ 23 →
      HasBits (.finite .positive m e hm) n
  | infinity : HasBits (.infinity .positive) (255 * 2 ^ 23)

theorem toNat_of_positive {v : BitVec 1} (h : Sign.ofBitVec v = .positive) : v.toNat = 0 := by
  rw [Sign.ofBitVec] at h
  split at h
  · rename_i hv
    rw [hv]
    rfl
  · cases h

theorem not_lt_of_negative {b : BitVec Format.binary32.numBits}
    (h : Sign.ofBitVec (unpackSign b) = .negative) :
    (UnpackedFloat.zero .positive).compare (unpack Format.binary32 b) ≠ some .lt := by
  intro hlt
  unfold unpack at hlt
  dsimp only at hlt
  rw [h] at hlt
  split at hlt
  · split at hlt <;> cases hlt
  · split at hlt
    · split at hlt <;> cases hlt
    · cases hlt

/-- The cases are those of the exponent: all ones, zero, and the others. -/
theorem unpack_of_positive {b : BitVec Format.binary32.numBits}
    (h : Sign.ofBitVec (unpackSign b) = .positive) :
    unpack Format.binary32 b = .notANumber ∨ unpack Format.binary32 b = .zero .positive ∨
      HasBits (unpack Format.binary32 b) b.toNat := by
  have hmantissa := toNat_unpackMantissa b
  have hexponent := toNat_unpackExponent b
  have hsign := toNat_unpackSign b
  rw [toNat_of_positive h] at hsign
  have hlt : b.toNat < 2 ^ 32 := b.isLt
  have hbias : (Format.binary32.exponentBias : Int) + (23 : Nat) = 150 := rfl
  unfold unpack
  dsimp only
  rw [h, hbias]
  split
  · rename_i hones
    have hones : (unpackExponent b).toNat = 255 := by rw [hones]; rfl
    split
    · rename_i hnull
      have hnull : (unpackMantissa b).toNat = 0 := by rw [hnull]; rfl
      have hb : b.toNat = 255 * 2 ^ 23 := by omega
      rw [hb]
      exact .inr (.inr .infinity)
    · exact .inl rfl
  rename_i hones
  have hones : (unpackExponent b).toNat ≠ 255 := fun heq => hones (BitVec.eq_of_toNat_eq heq)
  have hbound : (unpackMantissa b).toNat < 2 ^ 23 := (unpackMantissa b).isLt
  split
  · rename_i hzero
    have hzero : (unpackExponent b).toNat = 0 := by rw [hzero]; rfl
    split
    · exact .inr (.inl rfl)
    · refine .inr (.inr (.finite (n := b.toNat) (k := 0) _ ?_ ?_ ?_ (.inr rfl) ?_))
      · omega
      · omega
      · omega
      · omega
  · rename_i hzero
    have hzero : (unpackExponent b).toNat ≠ 0 := fun heq => hzero (BitVec.eq_of_toNat_eq heq)
    have hm := toNat_one_append (unpackMantissa b)
    refine .inr (.inr (.finite (n := b.toNat) (k := (unpackExponent b).toNat - 1) _ ?_ ?_ ?_
      (.inl ?_) ?_))
    · omega
    · omega
    · omega
    · omega
    · omega

theorem hasBits_unpack {b : BitVec Format.binary32.numBits}
    (h : (UnpackedFloat.zero .positive).compare (unpack Format.binary32 b) = some .lt) :
    HasBits (unpack Format.binary32 b) b.toNat := by
  cases hs : Sign.ofBitVec (unpackSign b) with
  | negative => exact absurd h (not_lt_of_negative hs)
  | positive =>
    rcases unpack_of_positive hs with hnan | hzero | hbits
    · rw [hnan] at h
      cases h
    · rw [hzero] at h
      cases h
    · exact hbits

theorem hasBits_of_pos {x : Float32} (h : 0 < x) :
    HasBits x.toModel.unpack x.toBits.toNat := by
  rw [lt_iff, unpack_zero] at h
  exact hasBits_unpack h

/-- A greater exponent outweighs all mantissas, as the mantissa beside it is full. -/
theorem HasBits.compare_eq {u v : UnpackedFloat} {i j : Nat} (hu : HasBits u i)
    (hv : HasBits v j) : u.compare v = some (compare i j) := by
  cases hu with
  | infinity =>
    cases hv with
    | infinity => rfl
    | finite _ _ _ _ _ hlast =>
      rw [Nat.compare_eq_gt.mpr hlast]
      rfl
  | @finite m k _ e _ he hi hm hfull hlast =>
    cases hv with
    | infinity =>
      rw [Nat.compare_eq_lt.mpr hlast]
      rfl
    | @finite m' k' _ e' _ he' hj hm' hfull' _ =>
      rw [UnpackedFloat.compare, Option.some.injEq]
      rcases Nat.lt_trichotomy k k' with hlt | heq | hgt
      · rw [Int.compare_eq_lt.mpr (by omega), Nat.compare_eq_lt.mpr (by omega : i < j)]
        rfl
      · rw [Int.compare_eq_eq.mpr (by omega), Ordering.eq_then, hi, hj, heq,
          Nat.compare_eq_ite_lt, Nat.compare_eq_ite_lt]
        simp only [Nat.add_lt_add_iff_left]
      · rw [Int.compare_eq_gt.mpr (by omega), Nat.compare_eq_gt.mpr (by omega : j < i)]
        rfl

/-- Positive numbers are ordered as their bits are. -/
theorem le_iff_toBits_le {x y : Float32} (hx : 0 < x) (hy : 0 < y) :
    x ≤ y ↔ x.toBits ≤ y.toBits := by
  rw [le_iff, (hasBits_of_pos hx).compare_eq (hasBits_of_pos hy), UInt32.le_iff_toNat_le,
    ← Nat.isLE_compare]
  constructor
  · rintro ⟨order, horder, hle⟩
    rwa [Option.some.inj horder]
  · intro hle
    exact ⟨_, rfl, hle⟩

/-! ## Shares of nothing -/

/-- Zero or no number. -/
def IsNull (x : Float32) : Prop :=
  x.toModel.unpack = .notANumber ∨ ∃ s, x.toModel.unpack = .zero s

theorem IsNull.not_pos {x : Float32} (h : IsNull x) : ¬ 0 < x := by
  rw [lt_iff, unpack_zero]
  rcases h with h | ⟨s, h⟩
  · rw [h]
    simp [UnpackedFloat.compare]
  · rw [h]
    simp [UnpackedFloat.compare]

theorem isNull_ofNat_zero : IsNull (.ofNat 0) := .inr ⟨.positive, rfl⟩

theorem isNull_pack {u : UnpackedFloat} (h : u = .notANumber ∨ ∃ s, u = .zero s) :
    IsNull (.ofModel (.pack u)) := by
  rcases h with rfl | ⟨s, rfl⟩
  · exact .inl rfl
  · cases s with
    | negative => exact .inr ⟨.negative, rfl⟩
    | positive => exact .inr ⟨.positive, rfl⟩

theorem IsNull.div {x : Float32} (h : IsNull x) (y : Float32) : IsNull (x / y) := by
  apply isNull_pack
  rcases h with h | ⟨s, h⟩
  · rw [h]
    exact .inl (by rw [UnpackedFloat.div])
  · rw [h]
    cases y.toModel.unpack with
    | notANumber => exact .inl rfl
    | infinity s' => exact .inr ⟨s / s', rfl⟩
    | zero s' => exact .inl rfl
    | finite s' m e hm => exact .inr ⟨s / s', rfl⟩

theorem IsNull.mul {x : Float32} (h : IsNull x) (y : Float32) : IsNull (x * y) := by
  apply isNull_pack
  rcases h with h | ⟨s, h⟩
  · rw [h]
    exact .inl (by rw [UnpackedFloat.mul])
  · rw [h]
    cases y.toModel.unpack with
    | notANumber => exact .inl rfl
    | infinity s' => exact .inl rfl
    | zero s' => exact .inr ⟨s * s', rfl⟩
    | finite s' m e hm => exact .inr ⟨s * s', rfl⟩

end SinglePrecision
end SqlAudit
