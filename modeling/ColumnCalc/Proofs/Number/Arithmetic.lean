import ColumnCalc.Proofs.Number.Packing

/-!
# Products, quotients and sums

A product, a quotient or a sum of finite numbers is the exact result rounded once, with the sign
that the operands give it (`mul_of_finite`, `div_of_finite`, `add_of_finite`). The exact result is
written as a fraction of units.
-/

namespace ColumnCalc.Number

open Float.Model Float.Model.UnpackedFloat

variable {x y : Float}

@[simp]
theorem units_zero : units 0 = 0 := rfl

theorem nearest_zero {den : Nat} (hden : 0 < den) : nearest 0 den = 0 :=
  nearest_eq_zero hden

/-! ## Products -/

theorem mul_eq_packed (x y : Float) :
    x * y = packed (UnpackedFloat.mul Format.binary64 x.toModel.unpack y.toModel.unpack) := rfl

theorem sign_mul (s t : Sign) :
    (s * t == Sign.negative) = ((s == .negative) != (t == .negative)) := by
  cases s <;> cases t <;> rfl

/-- The mantissa of a product is long enough to be rounded. -/
theorem place_mul {m m' k k' : Nat} (hm : 0 < m) (hm' : 0 < m') (hk : k = 0 ∨ 2 ^ 52 ≤ m)
    (hk' : k' = 0 ∨ 2 ^ 52 ≤ m') : (k - 1074 + (k' - 1074) : Int)
      ≤ max (((m * m').log2 : Int) + 1 + (k - 1074 + (k' - 1074)) - 53) (-1074) := by
  have hlog : 2 ^ 52 ≤ m * m' → 52 ≤ (m * m').log2 :=
    (Nat.le_log2 (Nat.mul_pos hm hm').ne').mpr
  rcases hk with rfl | hk
  · rcases hk' with rfl | hk'
    · omega
    · have := hlog (hk'.trans (Nat.le_mul_of_pos_left _ hm))
      omega
  · have := hlog (hk.trans (Nat.le_mul_of_pos_right _ hm'))
    omega

theorem mul_of_finite (hx : magnitude x < infinite) (hy : magnitude y < infinite) :
    magnitude (x * y) = nearest (units (magnitude x) * units (magnitude y)) (2 ^ places) ∧
      isNegative (x * y) = (isNegative x != isNegative y) := by
  obtain ⟨s, hs, hzero | ⟨m, k, hm, hf, hu, hk⟩⟩ := unpack_of_finite hx
  · obtain ⟨t, ht, hzero' | ⟨m', k', hm', hf', -, -⟩⟩ := unpack_of_finite hy
    · rw [mul_eq_packed, hzero.1, hzero'.1, hzero.2, units_zero, Nat.zero_mul,
        nearest_zero (Nat.two_pow_pos _), hs, ht, ← sign_mul]
      exact ⟨magnitude_packed_zero _, isNegative_packed (pack_zero _)⟩
    · rw [mul_eq_packed, hzero.1, hf', hzero.2, units_zero, Nat.zero_mul,
        nearest_zero (Nat.two_pow_pos _), hs, ht, ← sign_mul]
      exact ⟨magnitude_packed_zero _, isNegative_packed (pack_zero _)⟩
  · obtain ⟨t, ht, hzero' | ⟨m', k', hm', hf', hu', hk'⟩⟩ := unpack_of_finite hy
    · rw [mul_eq_packed, hf, hzero'.1, hzero'.2, units_zero, Nat.mul_zero,
        nearest_zero (Nat.two_pow_pos _), hs, ht, ← sign_mul]
      exact ⟨magnitude_packed_zero _, isNegative_packed (pack_zero _)⟩
    · obtain ⟨hmagnitude, hsign⟩ := packed_roundWithAccuracy (s * t) Nat.one_pos
        (represents_exact (m * m')) (place_mul hm hm' hk hk')
      rw [mul_eq_packed, hf, hf', hs, ht, ← sign_mul, hu, hu']
      refine ⟨hmagnitude.trans ?_, hsign⟩
      refine nearest_congr (Nat.mul_pos Nat.one_pos (Nat.two_pow_pos _)) (Nat.two_pow_pos _) ?_
      have hplace : ((k - 1074 + (k' - 1074) : Int) + 1074).toNat + places
          = k + k' + (-((k - 1074 + (k' - 1074) : Int) + 1074)).toNat := by
        rw [places_eq]
        omega
      rw [one_mul, mul_assoc, ← pow_add, hplace, pow_add, pow_add]
      ring

theorem mul_of_infinite (hx : magnitude x = infinite) (hy : magnitude y ≤ infinite)
    (hne : magnitude y ≠ 0) :
    magnitude (x * y) = infinite ∧ isNegative (x * y) = (isNegative x != isNegative y) := by
  obtain ⟨s, hs, hf⟩ := unpack_of_infinite hx
  rcases Nat.lt_or_eq_of_le hy with hlt | heq
  · obtain ⟨t, ht, hzero | ⟨m, k, hm, hg, -, -⟩⟩ := unpack_of_finite hlt
    · exact absurd hzero.2 hne
    · rw [mul_eq_packed, hf, hg, hs, ht, ← sign_mul]
      exact ⟨magnitude_packed_infinity _, isNegative_packed (pack_infinity _)⟩
  · obtain ⟨t, ht, hg⟩ := unpack_of_infinite heq
    rw [mul_eq_packed, hf, hg, hs, ht, ← sign_mul]
    exact ⟨magnitude_packed_infinity _, isNegative_packed (pack_infinity _)⟩

theorem mul_infinite_of_finite (hx : magnitude x < infinite) (hne : magnitude x ≠ 0)
    (hy : magnitude y = infinite) :
    magnitude (x * y) = infinite ∧ isNegative (x * y) = (isNegative x != isNegative y) := by
  obtain ⟨t, ht, hg⟩ := unpack_of_infinite hy
  obtain ⟨s, hs, hzero | ⟨m, k, hm, hf, -, -⟩⟩ := unpack_of_finite hx
  · exact absurd hzero.2 hne
  · rw [mul_eq_packed, hf, hg, hs, ht, ← sign_mul]
    exact ⟨magnitude_packed_infinity _, isNegative_packed (pack_infinity _)⟩

/-- Infinity times zero is no number. -/
theorem isNaN_mul_of_zero (hx : magnitude x = infinite) (hy : magnitude y = 0) :
    (x * y).isNaN = true := by
  obtain ⟨s, -, hf⟩ := unpack_of_infinite hx
  have hfinite : magnitude y < infinite := by
    rw [hy]
    decide
  obtain ⟨t, -, hzero | ⟨m, k, hm, -, hu, -⟩⟩ := unpack_of_finite hfinite
  · have hnan : UnpackedFloat.mul Format.binary64 (infinity s) (zero t) = notANumber := rfl
    rw [mul_eq_packed, hf, hzero.1, hnan]
    decide +kernel
  · rw [hy, units_zero] at hu
    exact absurd hu.symm (Nat.mul_pos hm (Nat.two_pow_pos k)).ne'

/-! ## Quotients -/

theorem div_eq_packed (x y : Float) :
    x / y = packed (UnpackedFloat.div Format.binary64 x.toModel.unpack y.toModel.unpack) := rfl

theorem sign_div (s t : Sign) :
    (s / t == Sign.negative) = ((s == .negative) != (t == .negative)) := by
  cases s <;> cases t <;> rfl

theorem divCore_eq (m m' : Nat) (e e' : Int) :
    let t := min (e - e') (max (m.log2 + 1 + e - (m'.log2 + 1 + e') - 53) (-1074))
    divCore Format.binary64 m e m' e' = (m * 2 ^ (e - e' - t).toNat / m', t,
      accuracyOfFraction (m * 2 ^ (e - e' - t).toNat % m') m') := by
  intro t
  have ht : min (e - e') (Format.binary64.targetExponent (totalExponent m e - totalExponent m' e'))
      = t := by
    norm_num [t, Format.targetExponent, totalExponent, Format.mantissaBits, Format.minExponent]
  rw [divCore, ht, Nat.shiftLeft_eq]

/-- The quotient is taken with enough digits to be rounded. -/
theorem place_div {m m' : Nat} {e e' t : Int} (hm : 0 < m) (hm' : 0 < m')
    (ht : t = min (e - e') (max (m.log2 + 1 + e - (m'.log2 + 1 + e') - 53) (-1074))) :
    t ≤ max ((m * 2 ^ (e - e' - t).toNat / m').log2 + 1 + t - 53) (-1074) := by
  rcases le_or_gt t (-1074) with hsub | hnormal
  · omega
  · have hshift : 53 + m'.log2 ≤ m.log2 + (e - e' - t).toNat := by omega
    have hle : 2 ^ 52 ≤ m * 2 ^ (e - e' - t).toNat / m' := by
      rw [Nat.le_div_iff_mul_le hm']
      calc 2 ^ 52 * m' ≤ 2 ^ 52 * 2 ^ (m'.log2 + 1) :=
            Nat.mul_le_mul_left _ Nat.lt_log2_self.le
        _ = 2 ^ (53 + m'.log2) := by
            rw [← pow_add]
            congr 1
            omega
        _ ≤ 2 ^ (m.log2 + (e - e' - t).toNat) := Nat.pow_le_pow_right (by decide) hshift
        _ = 2 ^ m.log2 * 2 ^ (e - e' - t).toNat := pow_add _ _ _
        _ ≤ m * 2 ^ (e - e' - t).toNat := Nat.mul_le_mul_right _ (Nat.log2_self_le hm.ne')
    have hlog := (Nat.le_log2 (by omega)).mpr hle
    omega

theorem div_of_finite (hx : magnitude x < infinite) (hy : magnitude y < infinite)
    (hne : magnitude y ≠ 0) :
    magnitude (x / y) = nearest (units (magnitude x) * 2 ^ places) (units (magnitude y)) ∧
      isNegative (x / y) = (isNegative x != isNegative y) := by
  obtain ⟨t, ht, hzero | ⟨m', k', hm', hf', hu', hk'⟩⟩ := unpack_of_finite hy
  · exact absurd hzero.2 hne
  · have hpos : 0 < units (magnitude y) := hu' ▸ Nat.mul_pos hm' (Nat.two_pow_pos _)
    obtain ⟨s, hs, hzero | ⟨m, k, hm, hf, hu, hk⟩⟩ := unpack_of_finite hx
    · rw [div_eq_packed, hzero.1, hf', hzero.2, units_zero, Nat.zero_mul, nearest_zero hpos, hs, ht,
        ← sign_div]
      exact ⟨magnitude_packed_zero _, isNegative_packed (pack_zero _)⟩
    · obtain ⟨e, he⟩ : ∃ e, e = min ((k - 1074 : Int) - (k' - 1074))
        (max (m.log2 + 1 + (k - 1074) - (m'.log2 + 1 + (k' - 1074)) - 53) (-1074)) := ⟨_, rfl⟩
      obtain ⟨hmagnitude, hsign⟩ := packed_roundWithAccuracy (s / t) hm'
        (represents_fraction (m * 2 ^ ((k - 1074 : Int) - (k' - 1074) - e).toNat) hm')
        (place_div hm hm' he)
      rw [div_eq_packed, hf, hf', hs, ht, ← sign_div, UnpackedFloat.div, divCore_eq, ← he]
      refine ⟨hmagnitude.trans ?_, hsign⟩
      refine nearest_congr (Nat.mul_pos hm' (Nat.two_pow_pos _)) hpos ?_
      have hplace : ((k - 1074 : Int) - (k' - 1074) - e).toNat + (e + 1074).toNat + k'
          = k + places + (-(e + 1074)).toNat := by
        rw [places_eq]
        omega
      rw [hu, hu']
      calc m * 2 ^ ((k - 1074 : Int) - (k' - 1074) - e).toNat * 2 ^ (e + 1074).toNat * (m' * 2 ^ k')
          = m * m' * 2 ^ (((k - 1074 : Int) - (k' - 1074) - e).toNat + (e + 1074).toNat + k') := by
            rw [pow_add, pow_add]
            ring
        _ = m * 2 ^ k * 2 ^ places * (m' * 2 ^ (-(e + 1074)).toNat) := by
            rw [hplace, pow_add, pow_add]
            ring

theorem infinite_div (hx : magnitude x = infinite) (hy : magnitude y < infinite) :
    magnitude (x / y) = infinite ∧ isNegative (x / y) = (isNegative x != isNegative y) := by
  obtain ⟨s, hs, hf⟩ := unpack_of_infinite hx
  obtain ⟨t, ht, hzero | ⟨m, k, hm, hg, -, -⟩⟩ := unpack_of_finite hy
  · rw [div_eq_packed, hf, hzero.1, hs, ht, ← sign_div]
    exact ⟨magnitude_packed_infinity _, isNegative_packed (pack_infinity _)⟩
  · rw [div_eq_packed, hf, hg, hs, ht, ← sign_div]
    exact ⟨magnitude_packed_infinity _, isNegative_packed (pack_infinity _)⟩

theorem div_infinite (hx : magnitude x < infinite) (hy : magnitude y = infinite) :
    magnitude (x / y) = 0 ∧ isNegative (x / y) = (isNegative x != isNegative y) := by
  obtain ⟨t, ht, hg⟩ := unpack_of_infinite hy
  obtain ⟨s, hs, hzero | ⟨m, k, hm, hf, -, -⟩⟩ := unpack_of_finite hx
  · rw [div_eq_packed, hzero.1, hg, hs, ht, ← sign_div]
    exact ⟨magnitude_packed_zero _, isNegative_packed (pack_zero _)⟩
  · rw [div_eq_packed, hf, hg, hs, ht, ← sign_div]
    exact ⟨magnitude_packed_zero _, isNegative_packed (pack_zero _)⟩

/-! ## Sums -/

theorem add_eq_packed (x y : Float) :
    x + y = packed (UnpackedFloat.add Format.binary64 x.toModel.unpack y.toModel.unpack) := rfl

theorem log2_mul_two_pow {m : Nat} (hm : 0 < m) (j : Nat) :
    (m * 2 ^ j).log2 = m.log2 + j := by
  apply log2_eq
  · rw [pow_add]
    exact Nat.mul_le_mul_right _ (Nat.log2_self_le hm.ne')
  · rw [Nat.add_right_comm, pow_add]
    exact Nat.mul_lt_mul_of_pos_right Nat.lt_log2_self (Nat.two_pow_pos j)

/-- A mantissa of any length, rounded where its exponent is not below that of a unit. -/
theorem packed_round (s : Sign) {m k : Nat} (hm : 0 < m) :
    magnitude (packed (round Format.binary64 s m (k - 1074))) = nearest (m * 2 ^ k) 1 ∧
      isNegative (packed (round Format.binary64 s m (k - 1074))) = (s == .negative) := by
  obtain ⟨j, hj⟩ : ∃ j : Nat,
      j = ((k - 1074 : Int) - max ((m.log2 : Int) + 1 + (k - 1074) - 53) (-1074)).toNat := ⟨_, rfl⟩
  have hround : round Format.binary64 s m (k - 1074) = roundWithAccuracy Format.binary64 s
      (m * 2 ^ j) ((k - 1074 : Int) - j) .exact := by
    rw [UnpackedFloat.round, targetExponent_eq, decreaseExponent, Nat.shiftLeft_eq, ← hj]
  have hlog := log2_mul_two_pow hm j
  obtain ⟨hmagnitude, hsign⟩ := packed_roundWithAccuracy s Nat.one_pos
    (represents_exact (m * 2 ^ j)) (e := (k - 1074 : Int) - j) (by omega)
  rw [hround]
  refine ⟨hmagnitude.trans ?_, hsign⟩
  refine nearest_congr (Nat.mul_pos Nat.one_pos (Nat.two_pow_pos _)) Nat.one_pos ?_
  have hplace : j + ((k - 1074 : Int) - j + 1074).toNat
      = k + (-((k - 1074 : Int) - j + 1074)).toNat := by omega
  rw [mul_one, one_mul, mul_assoc, mul_assoc, ← pow_add, ← pow_add, hplace]

theorem nearest_units_one {m : Nat} (h : m < infinite) : nearest (units m) 1 = m := by
  have hunits := nearest_units h Nat.one_pos
  rwa [Nat.mul_one] at hunits

/-- Two mantissas are added in the place of the lower one. -/
theorem packed_add_finite {m m' k k' : Nat} (hm : 0 < m) (hm' : 0 < m') :
    magnitude (packed (UnpackedFloat.add Format.binary64 (finite .positive m (k - 1074) hm)
        (finite .positive m' (k' - 1074) hm'))) = nearest (m * 2 ^ k + m' * 2 ^ k') 1 ∧
      isNegative (packed (UnpackedFloat.add Format.binary64 (finite .positive m (k - 1074) hm)
        (finite .positive m' (k' - 1074) hm'))) = false := by
  have hmin : min (k - 1074 : Int) (k' - 1074) = (min k k' : Nat) - 1074 := by omega
  have hshift : ((k - 1074 : Int) - ((min k k' : Nat) - 1074)).toNat = k - min k k' := by omega
  have hshift' : ((k' - 1074 : Int) - ((min k k' : Nat) - 1074)).toNat = k' - min k k' := by omega
  have hpos : 0 < m * 2 ^ (k - min k k') + m' * 2 ^ (k' - min k k') :=
    Nat.add_pos_left (Nat.mul_pos hm (Nat.two_pow_pos _)) _
  have hadd : UnpackedFloat.add Format.binary64 (finite .positive m (k - 1074) hm)
      (finite .positive m' (k' - 1074) hm') = round Format.binary64 .positive
        (m * 2 ^ (k - min k k') + m' * 2 ^ (k' - min k k')) ((min k k' : Nat) - 1074) := by
    have hcompare : compare ((m * 2 ^ (k - min k k') + m' * 2 ^ (k' - min k k') : Nat) : Int) 0
        = .gt := compare_gt_iff_gt.mpr (by exact_mod_cast hpos)
    simp only [UnpackedFloat.add, decreaseExponent, Sign.apply, hmin, hshift, hshift',
      Nat.shiftLeft_eq, UnpackedFloat.normalize, ← Nat.cast_add, hcompare, Int.toNat_natCast]
  have hsum : (m * 2 ^ (k - min k k') + m' * 2 ^ (k' - min k k')) * 2 ^ min k k'
      = m * 2 ^ k + m' * 2 ^ k' := by
    rw [Nat.add_mul, mul_assoc, mul_assoc, ← pow_add, ← pow_add,
      Nat.sub_add_cancel (Nat.min_le_left k k'), Nat.sub_add_cancel (Nat.min_le_right k k')]
  rw [hadd, ← hsum]
  exact packed_round .positive hpos

theorem positive_of_isNegative {s : Sign} (h : false = (s == .negative)) : s = .positive := by
  cases s with
  | negative => cases h
  | positive => rfl

@[simp]
theorem packed_unpack (x : Float) : packed x.toModel.unpack = x :=
  Float.ofBits_toBits x

theorem add_eq_of_unpack {z : Float} (h : UnpackedFloat.add Format.binary64 x.toModel.unpack
    y.toModel.unpack = z.toModel.unpack) : x + y = z := by
  rw [add_eq_packed, h, packed_unpack]

theorem add_of_finite (hx : magnitude x < infinite) (hy : magnitude y < infinite)
    (hposx : isNegative x = false) (hposy : isNegative y = false) :
    magnitude (x + y) = nearest (units (magnitude x) + units (magnitude y)) 1 ∧
      isNegative (x + y) = false := by
  obtain ⟨s, hs, hzero | ⟨m, k, hm, hf, hu, -⟩⟩ := unpack_of_finite hx
  · obtain ⟨t, ht, hzero' | ⟨m', k', hm', hf', -, -⟩⟩ := unpack_of_finite hy
    · cases positive_of_isNegative (hposx ▸ hs)
      cases positive_of_isNegative (hposy ▸ ht)
      rw [add_eq_packed, hzero.1, hzero'.1, hzero.2, hzero'.2]
      exact ⟨magnitude_packed_zero .positive, isNegative_packed (pack_zero .positive)⟩
    · have hadd : x + y = y := add_eq_of_unpack (by
        rw [hzero.1, hf']
        rfl)
      rw [hadd, hzero.2, units_zero, Nat.zero_add, nearest_units_one hy]
      exact ⟨rfl, hposy⟩
  · obtain ⟨t, ht, hzero' | ⟨m', k', hm', hf', hu', -⟩⟩ := unpack_of_finite hy
    · have hadd : x + y = x := add_eq_of_unpack (by
        rw [hf, hzero'.1]
        rfl)
      rw [hadd, hzero'.2, units_zero, Nat.add_zero, nearest_units_one hx]
      exact ⟨rfl, hposx⟩
    · cases positive_of_isNegative (hposx ▸ hs)
      cases positive_of_isNegative (hposy ▸ ht)
      rw [add_eq_packed, hf, hf', hu, hu']
      exact packed_add_finite hm hm'

theorem infinite_add (hx : magnitude x = infinite) (hy : magnitude y ≤ infinite)
    (hposx : isNegative x = false) (hposy : isNegative y = false) :
    magnitude (x + y) = infinite ∧ isNegative (x + y) = false := by
  obtain ⟨s, hs, hf⟩ := unpack_of_infinite hx
  cases positive_of_isNegative (hposx ▸ hs)
  rcases Nat.lt_or_eq_of_le hy with hlt | heq
  · have hadd : x + y = x := by
      apply add_eq_of_unpack
      obtain ⟨t, -, hzero | ⟨m, k, hm, hg, -, -⟩⟩ := unpack_of_finite hlt
      · rw [hf, hzero.1]
        rfl
      · rw [hf, hg]
        rfl
    rw [hadd]
    exact ⟨hx, hposx⟩
  · obtain ⟨t, ht, hg⟩ := unpack_of_infinite heq
    cases positive_of_isNegative (hposy ▸ ht)
    have hadd : x + y = x := add_eq_of_unpack (by
      rw [hf, hg]
      rfl)
    rw [hadd]
    exact ⟨hx, hposx⟩

theorem add_infinite (hx : magnitude x < infinite) (hy : magnitude y = infinite) :
    x + y = y := by
  obtain ⟨t, -, hg⟩ := unpack_of_infinite hy
  apply add_eq_of_unpack
  obtain ⟨s, -, hzero | ⟨m, k, hm, hf, -, -⟩⟩ := unpack_of_finite hx
  · rw [hzero.1, hg]
    rfl
  · rw [hf, hg]
    rfl

end ColumnCalc.Number
