import ColumnCalc.Proofs.Number.Bits
import ColumnCalc.Proofs.Number.Rounding

/-!
# Doubles taken apart and put together

To compute with a double it is taken apart into a sign, a mantissa and an exponent; `Stands` says
what these have to do with its magnitude. An exact result is shifted to the place of its last bit,
with two bits that tell what was shifted out; `Represents` says what they stand for, and that is
enough to round (`Represents.roundedMantissa`). What is put together again has the magnitude nearest
to the exact result (`packed_roundWithAccuracy`).
-/

namespace ColumnCalc.Number

open Float.Model Float.Model.UnpackedFloat

/-! ## Mantissas with residual bits -/

/-- The mantissa is the quotient, and the two bits tell how the remainder lies to half of it. -/
structure Represents (em : ExtendedMantissa) (num den : Nat) : Prop where
  mantissa : em.mantissa = num / den
  roundBit : em.roundBit = decide (den ≤ 2 * (num % den))
  stickyBit : em.stickyBit = decide (2 * (num % den) ≠ 0 ∧ 2 * (num % den) ≠ den)

theorem represents_exact (m : Nat) :
    Represents (.ofMantissaAndAccuracy m .exact) m 1 := by
  constructor
  · exact (Nat.div_one m).symm
  · simp [ExtendedMantissa.ofMantissaAndAccuracy, Nat.mod_one]
  · simp [ExtendedMantissa.ofMantissaAndAccuracy, Nat.mod_one]

theorem represents_fraction (num : Nat) {den : Nat} (hden : 0 < den) :
    Represents (.ofMantissaAndAccuracy (num / den) (accuracyOfFraction (num % den) den))
      num den := by
  unfold accuracyOfFraction
  split
  · rename_i hzero
    have hne : ¬ den ≤ 0 := by omega
    constructor <;> simp [ExtendedMantissa.ofMantissaAndAccuracy, hzero, hne]
  · rename_i hzero
    cases hcompare : compare (2 * (num % den)) den with
    | lt =>
      have hlt := Nat.compare_eq_lt.mp hcompare
      constructor <;> simp [ExtendedMantissa.ofMantissaAndAccuracy, hzero] <;> omega
    | eq =>
      have heq := Nat.compare_eq_eq.mp hcompare
      constructor <;> simp [ExtendedMantissa.ofMantissaAndAccuracy, hzero] <;> omega
    | gt =>
      have hgt := Nat.compare_eq_gt.mp hcompare
      constructor <;> simp [ExtendedMantissa.ofMantissaAndAccuracy, hzero] <;> omega

section
variable {em : ExtendedMantissa} {num den : Nat}

/-- The bit that leaves the mantissa is the new round bit. -/
theorem Represents.shiftRightOne (hden : 0 < den) (h : Represents em num den) :
    Represents em.shiftRightOne num (den * 2) := by
  have hmod : num % (den * 2) = num % den + den * (num / den % 2) := Nat.mod_mul
  have hlt : num % den < den := Nat.mod_lt _ hden
  constructor
  · rw [ExtendedMantissa.shiftRightOne, h.mantissa, Nat.div_div_eq_div_mul]
  · rw [ExtendedMantissa.shiftRightOne, h.mantissa, hmod]
    rcases Nat.mod_two_eq_zero_or_one (num / den) with hbit | hbit
    · simp [hbit]
      omega
    · simp [hbit]
      omega
  · rw [ExtendedMantissa.shiftRightOne, h.roundBit, h.stickyBit, hmod]
    rcases Nat.mod_two_eq_zero_or_one (num / den) with hbit | hbit
    · simp [hbit]
      grind
    · simp [hbit]
      grind

theorem Represents.shiftRight (hden : 0 < den) (h : Represents em num den) (k : Nat) :
    Represents (em >>> k) num (den * 2 ^ k) := by
  induction k with
  | zero =>
    rw [Nat.pow_zero, Nat.mul_one]
    exact h
  | succ k ih =>
    have hshift := ih.shiftRightOne (Nat.mul_pos hden (Nat.two_pow_pos k))
    rw [Nat.mul_assoc, ← Nat.pow_succ] at hshift
    exact hshift

theorem Represents.roundedMantissa (hden : 0 < den) (h : Represents em num den) :
    em.roundedMantissa = roundDiv num den := by
  obtain ⟨m, round, sticky⟩ := em
  obtain ⟨hm, hround, hsticky⟩ := h
  have hlt : num % den < den := Nat.mod_lt _ hden
  dsimp only at hm hround hsticky
  subst hm
  cases round <;> cases sticky <;>
    simp [ExtendedMantissa.roundedMantissa, ExtendedMantissa.accuracy,
      Accuracy.roundToNearestEven, roundDiv] at hround hsticky ⊢ <;>
    split_ifs <;> omega

end

/-! ## Packing -/

/-- The double of a number that is rounded to the format. -/
def packed (f : UnpackedFloat) : Float :=
  .ofModel (.pack f)

theorem toBitVec_packed (f : UnpackedFloat) :
    (packed f).toBits.toBitVec = f.pack Format.binary64 := rfl

theorem isNegative_eq_msb (x : Float) : isNegative x = x.toBits.toBitVec.msb := by
  rw [BitVec.msb_eq_decide]
  rfl

section
variable {f : UnpackedFloat} {s : Sign} {e : BitVec 11} {m : BitVec 52}

theorem magnitude_packed (h : f.pack Format.binary64 = packComponents Format.binary64 s e m) :
    magnitude (packed f) = e.toNat * 2 ^ 52 + m.toNat := by
  rw [magnitude_eq, exponentBits, fractionBits, toBitVec_packed, h,
    unpackExponent_packComponents, unpackMantissa_packComponents]

theorem msb_packComponents : (packComponents Format.binary64 s e m).msb = s.toBitVec.msb := by
  have happend : (s.toBitVec ++ e ++ m).msb = s.toBitVec.msb := by
    rw [BitVec.msb_append, BitVec.msb_append]
    rfl
  exact happend

theorem isNegative_packed (h : f.pack Format.binary64 = packComponents Format.binary64 s e m) :
    isNegative (packed f) = (s == .negative) := by
  rw [isNegative_eq_msb, toBitVec_packed, h, msb_packComponents]
  cases s with
  | negative => rfl
  | positive => rfl

end

section
variable (s : Sign)

theorem pack_zero : (zero s).pack Format.binary64 = packComponents Format.binary64 s 0#11 0#52 :=
  rfl

theorem pack_infinity :
    (infinity s).pack Format.binary64 = packComponents Format.binary64 s (-1#11) 0#52 :=
  rfl

@[simp]
theorem magnitude_packed_zero : magnitude (packed (zero s)) = 0 :=
  magnitude_packed (pack_zero s)

@[simp]
theorem magnitude_packed_infinity : magnitude (packed (infinity s)) = infinite := by
  rw [magnitude_packed (pack_infinity s)]
  decide

theorem pack_finite {m k : Nat} (hm : 0 < m) :
    (finite s m (k - 1074 : Int) hm).pack Format.binary64 =
      if 2046 ≤ k then packComponents Format.binary64 s (-1#11) 0#52
      else if m.log2 = 52 then
        packComponents Format.binary64 s (.ofNat 11 (k + 1)) (.ofNat 52 m)
      else packComponents Format.binary64 s 0#11 (.ofNat 52 m) := by
  have hexp : ((k : Int) - 1074 + 1023 + 52).toNat = k + 1 := by omega
  have hbound : 2048 ≤ k + 1 + 1 ↔ 2046 ≤ k := by omega
  have hlog : m.log2 + 1 = 53 ↔ m.log2 = 52 := by omega
  simp only [UnpackedFloat.pack, Format.exponentBias, Format.mantissaBits, packedInfinity]
  norm_num [hexp, hbound, hlog]
  rfl

theorem magnitude_packed_finite {m k : Nat} (hm : 0 < m) (hlt : m < 2 ^ 53)
    (hk : k = 0 ∨ 2 ^ 52 ≤ m) :
    magnitude (packed (finite s m (k - 1074 : Int) hm)) = min (k * 2 ^ 52 + m) infinite := by
  have hpack := pack_finite s hm (k := k)
  rw [infinite_eq]
  split_ifs at hpack with hlarge hnormal
  · have hle : 2 ^ 52 ≤ m := hk.resolve_left (by omega)
    rw [magnitude_packed hpack]
    simp
    omega
  · have hle : 2 ^ 52 ≤ m := hnormal ▸ Nat.log2_self_le hm.ne'
    have hbits : (k + 1) % 2 ^ 11 = k + 1 := Nat.mod_eq_of_lt (by omega)
    rw [magnitude_packed hpack, BitVec.toNat_ofNat, BitVec.toNat_ofNat, hbits]
    omega
  · have hsmall : m < 2 ^ 52 := by
      by_contra hle
      exact hnormal (log2_eq (Nat.not_lt.mp hle) hlt)
    have hzero : k = 0 := hk.resolve_right (by omega)
    rw [magnitude_packed hpack, BitVec.toNat_ofNat, BitVec.toNat_ofNat, Nat.mod_eq_of_lt hsmall,
      hzero]
    omega

theorem isNegative_packed_finite {m k : Nat} (hm : 0 < m) :
    isNegative (packed (finite s m (k - 1074 : Int) hm)) = (s == .negative) := by
  have hpack := pack_finite s hm (k := k)
  split_ifs at hpack
  · exact isNegative_packed hpack
  · exact isNegative_packed hpack
  · exact isNegative_packed hpack

end


/-! ## Rounding a mantissa -/

theorem shiftToExponent_eq (m : Nat) (e t : Int) (accuracy : Accuracy) :
    shiftToExponent m e accuracy t
      = (ExtendedMantissa.ofMantissaAndAccuracy m accuracy >>> (t - e).toNat,
        e + (t - e).toNat) := rfl

/-- The exponent of the last bit that a number keeps. -/
theorem targetExponent_eq (m : Nat) (e : Int) :
    Format.binary64.targetExponent (totalExponent m e) = max (m.log2 + 1 + e - 53) (-1074) := by
  norm_num [Format.targetExponent, totalExponent, Format.mantissaBits, Format.minExponent]

/-- A mantissa in place stays there. -/
theorem shiftToTargetExponent_of_lt {m : Nat} {e : Int} (hm : m < 2 ^ 53) (he : -1074 ≤ e) :
    shiftToTargetExponent Format.binary64 m e .exact = (⟨m, false, false⟩, e) := by
  have hlog : m.log2 ≤ 52 := by
    by_cases hzero : m = 0
    · simp [hzero]
    · have := (Nat.log2_lt hzero).mpr hm
      omega
  have hshift : (max (m.log2 + 1 + e - 53) (-1074) - e).toNat = 0 := by omega
  rw [shiftToTargetExponent, targetExponent_eq, shiftToExponent_eq, hshift]
  simp [HShiftRight.hShiftRight, Nat.repeat, ExtendedMantissa.ofMantissaAndAccuracy]

/-- A carry moves the last bit up by one. -/
theorem shiftToTargetExponent_carry {e : Int} (he : -1074 ≤ e) :
    shiftToTargetExponent Format.binary64 (2 ^ 53) e .exact = (⟨2 ^ 52, false, false⟩, e + 1) := by
  have hshift : (max ((2 ^ 53).log2 + 1 + e - 53) (-1074) - e).toNat = 1 := by
    rw [Nat.log2_two_pow]
    omega
  rw [shiftToTargetExponent, targetExponent_eq, shiftToExponent_eq, hshift]
  rfl

/-- A rounded mantissa with the exponent of its last bit is a double, after a carry too. -/
theorem packed_of_significand (s : Sign) {r k : Nat} (hr : r ≤ 2 ^ 53) (hk : k = 0 ∨ 2 ^ 52 ≤ r)
    {f : UnpackedFloat} (hf : f =
      if h : (shiftToTargetExponent Format.binary64 r (k - 1074) .exact).1.mantissa = 0 then zero s
      else finite s (shiftToTargetExponent Format.binary64 r (k - 1074) .exact).1.mantissa
        (shiftToTargetExponent Format.binary64 r (k - 1074) .exact).2 (Nat.pos_of_ne_zero h)) :
    magnitude (packed f) = min (k * 2 ^ 52 + r) infinite ∧
      isNegative (packed f) = (s == .negative) := by
  have hexp : (-1074 : Int) ≤ k - 1074 := by omega
  rcases Nat.lt_or_eq_of_le hr with hlt | rfl
  · rw [shiftToTargetExponent_of_lt hlt hexp] at hf
    dsimp only at hf
    split_ifs at hf with hzero
    · subst hzero hf
      have hk' : k = 0 := hk.resolve_right (by decide)
      subst hk'
      exact ⟨magnitude_packed_zero s, isNegative_packed (pack_zero s)⟩
    · subst hf
      exact ⟨magnitude_packed_finite s _ hlt hk, isNegative_packed_finite s _⟩
  · rw [shiftToTargetExponent_carry hexp] at hf
    have hnext : (k : Int) - 1074 + 1 = (k + 1 : Nat) - 1074 := by omega
    have hsum : k * 2 ^ 52 + 2 ^ 53 = (k + 1) * 2 ^ 52 + 2 ^ 52 := by omega
    dsimp only at hf
    rw [dif_neg (by decide)] at hf
    simp only [hnext] at hf
    subst hf
    rw [hsum]
    exact ⟨magnitude_packed_finite s _ (by decide) (.inr (Nat.le_refl _)),
      isNegative_packed_finite s _⟩

/-- The last bit of a fraction of units stands in one place, seen from the fraction and seen from
its integer part. -/
theorem scale_units {num den j k : Nat} {e : Int} (hden : 0 < den)
    (hplace : (k - 1074 : Int) = e + j) (hlt : num / den < 2 ^ (53 + j))
    (hle : k = 0 ∨ 2 ^ (52 + j) ≤ num / den) :
    scale (num * 2 ^ (e + 1074).toNat) (den * 2 ^ (-(e + 1074)).toNat) = k := by
  have hbits : (-(e + 1074)).toNat + k = j + (e + 1074).toNat := by omega
  have hunits : ∀ c : Nat, 2 ^ (c + k) * (den * 2 ^ (-(e + 1074)).toNat)
      = 2 ^ (c + j) * den * 2 ^ (e + 1074).toNat := by
    intro c
    calc 2 ^ (c + k) * (den * 2 ^ (-(e + 1074)).toNat)
        = 2 ^ c * den * 2 ^ ((-(e + 1074)).toNat + k) := by
          rw [pow_add, pow_add]
          ring
      _ = 2 ^ (c + j) * den * 2 ^ (e + 1074).toNat := by
          rw [hbits, pow_add, pow_add]
          ring
  refine scale_eq (Nat.mul_pos hden (Nat.two_pow_pos _)) ?_ (hle.imp_right fun hle => ?_)
  · rw [hunits]
    exact Nat.mul_lt_mul_of_pos_right ((Nat.div_lt_iff_lt_mul hden).mp hlt) (Nat.two_pow_pos _)
  · rw [hunits]
    exact Nat.mul_le_mul_right _ ((Nat.le_div_iff_mul_le hden).mp hle)

theorem significand_units {num den j k : Nat} {e : Int} (hplace : (k - 1074 : Int) = e + j)
    (hscale : scale (num * 2 ^ (e + 1074).toNat) (den * 2 ^ (-(e + 1074)).toNat) = k) :
    significand (num * 2 ^ (e + 1074).toNat) (den * 2 ^ (-(e + 1074)).toNat)
      = roundDiv num (den * 2 ^ j) := by
  have hbits : (-(e + 1074)).toNat + k = j + (e + 1074).toNat := by omega
  rw [significand, hscale, Nat.mul_assoc, ← Nat.pow_add, hbits, Nat.pow_add, ← Nat.mul_assoc,
    roundDiv_mul (Nat.two_pow_pos _)]

/-- Units of a mantissa with an exponent, as a fraction. -/
theorem packed_roundWithAccuracy (s : Sign) {m num den : Nat} {e : Int} {accuracy : Accuracy}
    (hden : 0 < den) (h : Represents (.ofMantissaAndAccuracy m accuracy) num den)
    (he : e ≤ max (m.log2 + 1 + e - 53) (-1074)) :
    magnitude (packed (roundWithAccuracy Format.binary64 s m e accuracy))
      = nearest (num * 2 ^ (e + 1074).toNat) (den * 2 ^ (-(e + 1074)).toNat) ∧
    isNegative (packed (roundWithAccuracy Format.binary64 s m e accuracy)) = (s == .negative) := by
  have hm : m = num / den := by
    have := h.mantissa
    cases accuracy with
    | exact => exact this
    | inexact o => cases o <;> exact this
  obtain ⟨k, hk⟩ : ∃ k : Nat, max (m.log2 + 1 + e - 53) (-1074) = (k - 1074 : Int) :=
    ⟨(max (m.log2 + 1 + e - 53) (-1074) + 1074).toNat, by omega⟩
  obtain ⟨j, hj⟩ : ∃ j : Nat, (k - 1074 : Int) = e + j :=
    ⟨((k - 1074 : Int) - e).toNat, by omega⟩
  have hlt : num / den < 2 ^ (53 + j) := by
    rw [← hm]
    exact Nat.lt_of_lt_of_le Nat.lt_log2_self (Nat.pow_le_pow_right (by decide) (by omega))
  have hle : k = 0 ∨ 2 ^ (52 + j) ≤ num / den := by
    refine (Nat.eq_zero_or_pos k).imp_right fun hnormal => ?_
    have hlog : m.log2 = 52 + j := by omega
    have hne : m ≠ 0 := by
      rintro rfl
      rw [Nat.log2_zero] at hlog
      omega
    rw [← hm, ← hlog]
    exact Nat.log2_self_le hne
  have hscale := scale_units hden hj hlt hle
  have hfirst : shiftToTargetExponent Format.binary64 m e accuracy
      = (ExtendedMantissa.ofMantissaAndAccuracy m accuracy >>> j, (k - 1074 : Int)) := by
    have hshift : ((k - 1074 : Int) - e).toNat = j := by omega
    rw [shiftToTargetExponent, targetExponent_eq, shiftToExponent_eq, hk, hshift, hj]
  have hmantissa := (h.shiftRight hden j).roundedMantissa (Nat.mul_pos hden (Nat.two_pow_pos j))
  rw [← significand_units hj hscale] at hmantissa
  rw [nearest_eq_min, hscale, ← hmantissa]
  refine packed_of_significand s ?_ ?_ ?_
  · rw [hmantissa]
    exact significand_le _ _
  · rw [hmantissa, ← hscale]
    exact scale_eq_zero_or_le_significand _ _
  · rw [roundWithAccuracy, hfirst]

/-! ## Unpacking -/

/-- What an unpacked number says about the double it was unpacked from. -/
inductive Stands (x : Float) : UnpackedFloat → Prop
  | nan (h : infinite < magnitude x) : Stands x notANumber
  | infinity {s : Sign} (hs : isNegative x = (s == .negative)) (h : magnitude x = infinite) :
      Stands x (infinity s)
  | zero {s : Sign} (hs : isNegative x = (s == .negative)) (h : magnitude x = 0) :
      Stands x (zero s)
  | finite {s : Sign} {m k : Nat} {e : Int} (hm : 0 < m) (hs : isNegative x = (s == .negative))
      (h : magnitude x < infinite) (hu : units (magnitude x) = m * 2 ^ k) (he : e = k - 1074)
      (hk : k = 0 ∨ 2 ^ 52 ≤ m) : Stands x (finite s m e hm)

theorem toNat_unpackSign (x : Float) :
    (@unpackSign Format.binary64 x.toBits.toBitVec).toNat = x.toBits.toNat / 2 ^ 63 % 2 := by
  simp [unpackSign, Nat.shiftRight_eq_div_pow]

theorem sign_unpack (x : Float) : isNegative x
    = (Sign.ofBitVec (@unpackSign Format.binary64 x.toBits.toBitVec) == .negative) := by
  have hbit := toNat_unpackSign x
  have hlt : x.toBits.toNat < 2 ^ 64 := x.toBits.toNat_lt
  rw [isNegative_eq, Sign.ofBitVec]
  split
  · rename_i hzero
    rw [hzero, BitVec.toNat_ofNat] at hbit
    exact decide_eq_false (by omega)
  · rename_i hone
    have hne : (@unpackSign Format.binary64 x.toBits.toBitVec).toNat ≠ 0 := fun h0 =>
      hone (BitVec.eq_of_toNat_eq h0)
    exact decide_eq_true (by omega)

theorem units_of_exponentBits {x : Float} (h : exponentBits x = 0#11) :
    magnitude x = (fractionBits x).toNat ∧ units (magnitude x) = (fractionBits x).toNat := by
  have hlt := (fractionBits x).isLt
  have hmagnitude : magnitude x = (fractionBits x).toNat := by
    rw [magnitude_eq, h]
    exact Nat.zero_add _
  refine ⟨hmagnitude, ?_⟩
  rw [units_eq, hmagnitude]
  rw [if_pos (by omega), Nat.mod_eq_of_lt hlt]

theorem units_of_exponentBits_ne {x : Float} (h : exponentBits x ≠ 0#11) :
    units (magnitude x)
      = ((fractionBits x).toNat + 2 ^ 52) * 2 ^ ((exponentBits x).toNat - 1) := by
  have hlt := (fractionBits x).isLt
  have hpos : (exponentBits x).toNat ≠ 0 := fun h0 => h (BitVec.eq_of_toNat_eq h0)
  have hdiv : magnitude x / 2 ^ 52 = (exponentBits x).toNat := by
    rw [magnitude_eq]
    omega
  have hmod : magnitude x % 2 ^ 52 = (fractionBits x).toNat := by
    rw [magnitude_eq]
    omega
  rw [units_eq, hdiv, hmod, if_neg hpos]

theorem magnitude_lt_of_exponentBits {x : Float} (h : exponentBits x ≠ -1#11) :
    magnitude x < infinite := by
  have hne : (exponentBits x).toNat ≠ 2 ^ 11 - 1 := fun h0 => h (BitVec.eq_of_toNat_eq h0)
  have hexponent := (exponentBits x).isLt
  have hfraction := (fractionBits x).isLt
  rw [magnitude_eq, infinite_eq]
  omega

theorem stands_unpack (x : Float) : Stands x x.toModel.unpack := by
  have hsign := sign_unpack x
  have hmagnitude := magnitude_eq x
  change Stands x (UnpackedFloat.unpack Format.binary64 x.toBits.toBitVec)
  fun_cases UnpackedFloat.unpack Format.binary64 x.toBits.toBitVec with
  | case1 _ _ _ _ hexponent hfraction =>
    exact .infinity hsign (magnitude_of_isInf (isInf_iff_bits.mpr ⟨hexponent, hfraction⟩))
  | case2 _ _ hexponent hfraction =>
    refine .nan ?_
    have hpos : (fractionBits x).toNat ≠ 0 := fun h0 => hfraction (BitVec.eq_of_toNat_eq h0)
    have hall : (exponentBits x).toNat = 2 ^ 11 - 1 := congrArg BitVec.toNat hexponent
    rw [infinite_eq]
    omega
  | case3 _ _ _ _ _ hexponent hfraction =>
    refine .zero hsign ?_
    rw [(units_of_exponentBits hexponent).1]
    exact congrArg BitVec.toNat hfraction
  | case4 _ _ _ _ _ hexponent hsubnormal hfraction =>
    have hzero : (exponentBits x).toNat = 0 := congrArg BitVec.toNat hsubnormal
    have hunits : units (magnitude x) = (fractionBits x).toNat * 2 ^ 0 := by
      rw [pow_zero, mul_one]
      exact (units_of_exponentBits hsubnormal).2
    have hexp : ((exponentBits x).toNat : Int) - (1023 + 52) + 1 = (0 : Nat) - 1074 := by omega
    exact .finite _ hsign (magnitude_lt_of_exponentBits hexponent) hunits hexp (.inl rfl)
  | case5 _ _ _ _ _ hexponent hnormal =>
    have hpos : (exponentBits x).toNat ≠ 0 := fun h0 => hnormal (BitVec.eq_of_toNat_eq h0)
    have hbits : (1#1 ++ fractionBits x).toNat = (fractionBits x).toNat + 2 ^ 52 := by
      rw [BitVec.toNat_append, ← Nat.shiftLeft_add_eq_or_of_lt (fractionBits x).isLt, Nat.add_comm]
      rfl
    have hle : 2 ^ 52 ≤ (1#1 ++ fractionBits x).toNat := by omega
    have hunits : units (magnitude x) = (1#1 ++ fractionBits x).toNat
        * 2 ^ ((exponentBits x).toNat - 1) := by
      rw [hbits]
      exact units_of_exponentBits_ne hnormal
    have hexp : ((exponentBits x).toNat : Int) - (1023 + 52)
        = ((exponentBits x).toNat - 1 : Nat) - 1074 := by omega
    exact .finite _ hsign (magnitude_lt_of_exponentBits hexponent) hunits hexp (.inr hle)

section
variable {x : Float}

theorem unpack_of_finite (h : magnitude x < infinite) :
    ∃ s, isNegative x = (s == .negative) ∧
      ((x.toModel.unpack = zero s ∧ magnitude x = 0) ∨
        ∃ m k : Nat, ∃ hm, x.toModel.unpack = finite s m (k - 1074 : Int) hm ∧
          units (magnitude x) = m * 2 ^ k ∧ (k = 0 ∨ 2 ^ 52 ≤ m)) := by
  have hstands := stands_unpack x
  generalize x.toModel.unpack = f at hstands ⊢
  cases hstands with
  | nan hnan => omega
  | infinity _ hinf => omega
  | zero hs hzero => exact ⟨_, hs, .inl ⟨rfl, hzero⟩⟩
  | finite hm hs _ hu he hk =>
    subst he
    exact ⟨_, hs, .inr ⟨_, _, hm, rfl, hu, hk⟩⟩

theorem unpack_of_infinite (h : magnitude x = infinite) :
    ∃ s, isNegative x = (s == .negative) ∧ x.toModel.unpack = infinity s := by
  have hstands := stands_unpack x
  generalize x.toModel.unpack = f at hstands ⊢
  cases hstands with
  | nan hnan => omega
  | infinity hs _ => exact ⟨_, hs, rfl⟩
  | zero _ hzero => exact absurd (hzero.symm.trans h) (by decide)
  | finite _ _ hlt => omega

theorem isNaN_iff : x.isNaN = true ↔ infinite < magnitude x := by
  have hstands := stands_unpack x
  change x.toModel.unpack.isNaN = true ↔ _
  generalize x.toModel.unpack = f at hstands ⊢
  cases hstands with
  | nan hnan => exact ⟨fun _ => hnan, fun _ => rfl⟩
  | infinity _ hinf => exact ⟨(nomatch ·), fun h => absurd h (by omega)⟩
  | zero _ hzero => exact ⟨(nomatch ·), fun h => absurd h (by omega)⟩
  | finite _ _ hlt => exact ⟨(nomatch ·), fun h => absurd h (by omega)⟩

theorem isInf_iff : x.isInf = true ↔ magnitude x = infinite := by
  have hstands := stands_unpack x
  change x.toModel.unpack.isInf = true ↔ _
  generalize x.toModel.unpack = f at hstands ⊢
  cases hstands with
  | nan hnan => exact ⟨(nomatch ·), fun h => absurd h (by omega)⟩
  | infinity _ hinf => exact ⟨fun _ => hinf, fun _ => rfl⟩
  | zero _ hzero => exact ⟨(nomatch ·), fun h => absurd (hzero.symm.trans h) (by decide)⟩
  | finite _ _ hlt => exact ⟨(nomatch ·), fun h => absurd h (by omega)⟩

theorem beq_zero_iff : (x == 0.0) = true ↔ magnitude x = 0 := by
  have hzero : (0.0 : Float).toModel.unpack = zero .positive := by rfl
  have hstands := stands_unpack x
  change (x.toModel.unpack.compare (0.0 : Float).toModel.unpack == some .eq) = true ↔ _
  rw [hzero]
  generalize x.toModel.unpack = f at hstands ⊢
  cases hstands with
  | nan hnan => exact ⟨(nomatch ·), fun h => absurd h (by omega)⟩
  | @infinity s _ hinf =>
    have hne : magnitude x ≠ 0 := fun h => absurd (hinf.symm.trans h) (by decide)
    cases s with
    | negative => exact ⟨(nomatch ·), (absurd · hne)⟩
    | positive => exact ⟨(nomatch ·), (absurd · hne)⟩
  | zero _ hm => exact ⟨fun _ => hm, fun _ => rfl⟩
  | @finite s m k _ hm _ _ hu =>
    have hne : magnitude x ≠ 0 := by
      intro h
      rw [h] at hu
      exact absurd hu.symm (Nat.mul_pos hm (Nat.two_pow_pos k)).ne'
    cases s with
    | negative => exact ⟨(nomatch ·), (absurd · hne)⟩
    | positive => exact ⟨(nomatch ·), (absurd · hne)⟩

end

end ColumnCalc.Number
