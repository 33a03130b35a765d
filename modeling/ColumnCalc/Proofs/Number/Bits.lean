import ColumnCalc.Proofs.Number.Units
import Mathlib

/-!
# Doubles from their sign and magnitude

A double is its sign and its magnitude (`ofMagnitude_magnitude`). The magnitude tells the kinds of
doubles apart: it is `infinite` for the infinities (`magnitude_of_isInf`), and below for the finite
numbers (`magnitude_lt_infinite`). There is one double that is no number.
-/

namespace ColumnCalc.Number

open Float.Model Float.Model.UnpackedFloat

variable {x : Float}

theorem isNegative_eq (x : Float) : isNegative x = decide (2 ^ 63 ≤ x.toBits.toNat) := rfl

theorem magnitude_eq_mod (x : Float) : magnitude x = x.toBits.toNat % 2 ^ 63 := rfl

theorem ofMagnitude_eq (negative : Bool) (m : Nat) : ofMagnitude negative m
    = .ofBits (.ofNat (if negative then 2 ^ 63 + m else m)) := rfl

@[simp]
theorem ofMagnitude_magnitude (x : Float) : ofMagnitude (isNegative x) (magnitude x) = x := by
  have hlt : x.toBits.toNat < 2 ^ 64 := x.toBits.toNat_lt
  have hsum : (if isNegative x then 2 ^ 63 + magnitude x else magnitude x) = x.toBits.toNat := by
    rw [isNegative_eq, magnitude_eq_mod]
    simp only [decide_eq_true_eq]
    split
    · omega
    · omega
  rw [ofMagnitude_eq, hsum, UInt64.ofNat_toNat, Float.ofBits_toBits]

theorem eq_nan_of_isNaN (h : x.isNaN = true) : x = 0.0 / 0.0 := by
  have hnan : x = Float.nan := by simpa using h
  rw [hnan]
  decide +kernel

/-! ## Fields of the bits -/

/-- The bits between the sign and the fraction. -/
abbrev exponentBits (x : Float) : BitVec 11 :=
  @unpackExponent Format.binary64 x.toBits.toBitVec

abbrev fractionBits (x : Float) : BitVec 52 :=
  @unpackMantissa Format.binary64 x.toBits.toBitVec

theorem toNat_exponentBits (x : Float) :
    (exponentBits x).toNat = x.toBits.toNat / 2 ^ 52 % 2 ^ 11 := by
  simp [unpackExponent, Nat.shiftRight_eq_div_pow]

theorem toNat_fractionBits (x : Float) : (fractionBits x).toNat = x.toBits.toNat % 2 ^ 52 := by
  simp [unpackMantissa]

theorem magnitude_eq (x : Float) :
    magnitude x = (exponentBits x).toNat * 2 ^ 52 + (fractionBits x).toNat := by
  rw [toNat_exponentBits, toNat_fractionBits, magnitude_eq_mod]
  omega

theorem isInf_iff_bits : x.isInf = true ↔ exponentBits x = -1#11 ∧ fractionBits x = 0#52 := by
  change (UnpackedFloat.unpack Format.binary64 x.toBits.toBitVec).isInf = true ↔ _
  fun_cases UnpackedFloat.unpack Format.binary64 x.toBits.toBitVec with
  | case1 _ _ _ _ hexponent hfraction => exact ⟨fun _ => ⟨hexponent, hfraction⟩, fun _ => rfl⟩
  | case2 _ _ _ hfraction => exact ⟨(nomatch ·), fun h => absurd h.2 hfraction⟩
  | _ => exact ⟨(nomatch ·), fun h => absurd h.1 (by assumption)⟩

theorem isNaN_iff_bits : x.isNaN = true ↔ exponentBits x = -1#11 ∧ fractionBits x ≠ 0#52 := by
  change (UnpackedFloat.unpack Format.binary64 x.toBits.toBitVec).isNaN = true ↔ _
  fun_cases UnpackedFloat.unpack Format.binary64 x.toBits.toBitVec with
  | case1 _ _ _ _ _ hfraction => exact ⟨(nomatch ·), fun h => absurd hfraction h.2⟩
  | case2 _ _ hexponent hfraction => exact ⟨fun _ => ⟨hexponent, hfraction⟩, fun _ => rfl⟩
  | _ => exact ⟨(nomatch ·), fun h => absurd h.1 (by assumption)⟩

theorem magnitude_of_isInf (h : x.isInf = true) : magnitude x = infinite := by
  obtain ⟨hexponent, hfraction⟩ := isInf_iff_bits.mp h
  rw [magnitude_eq, hexponent, hfraction]
  rfl

theorem magnitude_lt_infinite (hnan : x.isNaN = false) (hinf : x.isInf = false) :
    magnitude x < infinite := by
  have hexponent : exponentBits x ≠ -1#11 := by
    intro he
    by_cases hf : fractionBits x = 0#52
    · exact Bool.eq_false_iff.mp hinf (isInf_iff_bits.mpr ⟨he, hf⟩)
    · exact Bool.eq_false_iff.mp hnan (isNaN_iff_bits.mpr ⟨he, hf⟩)
  have hne : (exponentBits x).toNat ≠ 2 ^ 11 - 1 := fun h => hexponent (BitVec.eq_of_toNat_eq h)
  have hlt := (exponentBits x).isLt
  have hfraction := (fractionBits x).isLt
  rw [magnitude_eq, infinite_eq]
  omega

end ColumnCalc.Number
