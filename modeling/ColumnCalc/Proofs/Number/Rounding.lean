import ColumnCalc.Proofs.Number.Units
import Mathlib

/-!
# Errors of rounding

`nearest` keeps the order of the fractions it rounds (`nearest_mono`). The number that a fraction is
rounded to differs from it by at most one part in `2^53`, or by half a unit (`amount_nearest_le`,
`le_amount_nearest`); among the subnormals, half a unit may be more. What is rounded to infinity is
bounded as if there were one more double behind the largest one.
-/

namespace ColumnCalc.Number

/-! ## Rounding to whole numbers -/

theorem div_le_roundDiv (num den : Nat) : num / den ≤ roundDiv num den := by
  simp only [roundDiv]
  split_ifs <;> omega

theorem roundDiv_le (num den : Nat) : roundDiv num den ≤ num / den + 1 := by
  simp only [roundDiv]
  split_ifs <;> omega

theorem roundDiv_mono (den : Nat) {num num' : Nat} (h : num ≤ num') :
    roundDiv num den ≤ roundDiv num' den := by
  rcases Nat.lt_or_eq_of_le (Nat.div_le_div_right (c := den) h) with hlt | heq
  · calc roundDiv num den ≤ num / den + 1 := roundDiv_le num den
      _ ≤ num' / den := hlt
      _ ≤ roundDiv num' den := div_le_roundDiv num' den
  · -- with one quotient, the larger remainder goes up if the smaller one does
    have hnum := Nat.div_add_mod num den
    have hnum' := Nat.div_add_mod num' den
    rw [heq] at hnum
    have hmod : num % den ≤ num' % den := by omega
    simp only [roundDiv, heq]
    split_ifs <;> omega

theorem two_mul_roundDiv_le (num : Nat) {den : Nat} (hden : 0 < den) :
    2 * (roundDiv num den * den) ≤ 2 * num + den := by
  have hmod := Nat.mod_lt num hden
  have hnum : num / den * den + num % den = num := Nat.div_add_mod' num den
  have hsucc : (num / den + 1) * den = num / den * den + den := Nat.succ_mul _ _
  have hparity := Nat.mod_two_eq_zero_or_one (num / den)
  simp only [roundDiv]
  split_ifs with hdown hup
  · omega
  · rw [hsucc]
    omega
  · rcases hparity with heven | hodd
    · rw [heven, Nat.add_zero]
      omega
    · rw [hodd, hsucc]
      omega

theorem le_two_mul_roundDiv (num : Nat) {den : Nat} (hden : 0 < den) :
    2 * num ≤ 2 * (roundDiv num den * den) + den := by
  have hmod := Nat.mod_lt num hden
  have hnum : num / den * den + num % den = num := Nat.div_add_mod' num den
  have hsucc : (num / den + 1) * den = num / den * den + den := Nat.succ_mul _ _
  have hparity := Nat.mod_two_eq_zero_or_one (num / den)
  simp only [roundDiv]
  split_ifs with hdown hup
  · omega
  · rw [hsucc]
    omega
  · rcases hparity with heven | hodd
    · rw [heven, Nat.add_zero]
      omega
    · rw [hodd, hsucc]
      omega

/-! ## Rounding to magnitudes -/

/-- The power of two that a fraction is rounded in, above a unit. -/
def scale (num den : Nat) : Nat :=
  (num / den).log2 - 52

/-- The multiple of that power. -/
def significand (num den : Nat) : Nat :=
  roundDiv num (den * 2 ^ scale num den)

theorem nearest_eq_min (num den : Nat) : nearest num den =
    min (scale num den * 2 ^ 52 + significand num den) infinite := rfl

theorem scale_mono {num den num' den' : Nat} (hden : 0 < den) (hden' : 0 < den')
    (h : num * den' ≤ num' * den) : scale num den ≤ scale num' den' := by
  have hdiv : num / den ≤ num' / den' := by
    rw [Nat.le_div_iff_mul_le hden']
    have hscaled : num / den * den' * den ≤ num' * den := by
      calc num / den * den' * den = num / den * den * den' := by ac_rfl
        _ ≤ num * den' := Nat.mul_le_mul_right _ (Nat.div_mul_le_self num den)
        _ ≤ num' * den := h
    exact Nat.le_of_mul_le_mul_right hscaled hden
  have hlog : (num / den).log2 ≤ (num' / den').log2 := by
    by_cases hzero : num / den = 0
    · simp [hzero]
    · have hpos : 0 < num' / den' := Nat.lt_of_lt_of_le (Nat.pos_of_ne_zero hzero) hdiv
      exact (Nat.le_log2 hpos.ne').mpr ((Nat.log2_self_le hzero).trans hdiv)
  exact Nat.sub_le_sub_right hlog 52

theorem significand_le (num den : Nat) : significand num den ≤ 2 ^ 53 := by
  have hlt : num / (den * 2 ^ scale num den) < 2 ^ 53 := by
    rw [← Nat.div_div_eq_div_mul, Nat.div_lt_iff_lt_mul (Nat.two_pow_pos _), ← Nat.pow_add]
    refine Nat.lt_of_lt_of_le Nat.lt_log2_self (Nat.pow_le_pow_right (by decide) ?_)
    unfold scale
    omega
  have hround := roundDiv_le num (den * 2 ^ scale num den)
  unfold significand
  omega

theorem two_pow_scale_le {num den : Nat} (h : 2 ^ 52 ≤ num / den) :
    2 ^ (52 + scale num den) ≤ num / den := by
  have hne : num / den ≠ 0 := by omega
  have hlog : 52 ≤ (num / den).log2 := (Nat.le_log2 hne).mpr h
  have hsum : 52 + scale num den = (num / den).log2 := by
    unfold scale
    omega
  rw [hsum]
  exact Nat.log2_self_le hne

theorem scale_of_lt {num den : Nat} (h : num / den < 2 ^ 52) : scale num den = 0 := by
  by_cases hzero : num / den = 0
  · simp [scale, hzero]
  · have := (Nat.log2_lt hzero).mpr h
    unfold scale
    omega

theorem scale_eq {num den k : Nat} (hden : 0 < den) (hlt : num < 2 ^ (53 + k) * den)
    (hle : k = 0 ∨ 2 ^ (52 + k) * den ≤ num) : scale num den = k := by
  have hupper : num / den < 2 ^ (53 + k) := (Nat.div_lt_iff_lt_mul hden).mpr hlt
  rcases hle with rfl | hle
  · rcases Nat.lt_or_ge (num / den) (2 ^ 52) with hsub | hnormal
    · exact scale_of_lt hsub
    · rw [scale, log2_eq hnormal hupper]
  · have hlower : 2 ^ (52 + k) ≤ num / den := (Nat.le_div_iff_mul_le hden).mpr hle
    have hexp : 52 + k + 1 = 53 + k := by omega
    rw [scale, log2_eq hlower (hexp ▸ hupper), Nat.add_sub_cancel_left]

theorem le_significand {num den : Nat} (h : 2 ^ 52 ≤ num / den) :
    2 ^ 52 ≤ significand num den := by
  refine Nat.le_trans ?_ (div_le_roundDiv _ _)
  rw [← Nat.div_div_eq_div_mul, Nat.le_div_iff_mul_le (Nat.two_pow_pos _), ← Nat.pow_add]
  exact two_pow_scale_le h

/-- A significand that is not normal is rounded in units. -/
theorem scale_eq_zero_or_le_significand (num den : Nat) :
    scale num den = 0 ∨ 2 ^ 52 ≤ significand num den := by
  rcases Nat.lt_or_ge (num / den) (2 ^ 52) with hlt | hge
  · exact .inl (scale_of_lt hlt)
  · exact .inr (le_significand hge)

/-- Rounding keeps the order. -/
theorem nearest_mono {num den num' den' : Nat} (hden : 0 < den) (hden' : 0 < den')
    (h : num * den' ≤ num' * den) : nearest num den ≤ nearest num' den' := by
  have hscale := scale_mono hden hden' h
  have hsum : scale num den * 2 ^ 52 + significand num den
      ≤ scale num' den' * 2 ^ 52 + significand num' den' := by
    rcases Nat.lt_or_eq_of_le hscale with hlt | heq
    · -- the significand of the larger scale makes up for a carry of the smaller one
      have hcarry := significand_le num den
      have hnormal := (scale_eq_zero_or_le_significand num' den').resolve_left (by omega)
      omega
    · have hround : significand num den ≤ significand num' den' := by
        unfold significand
        rw [heq, ← roundDiv_mul hden' num, ← roundDiv_mul hden num',
          Nat.mul_right_comm den', Nat.mul_comm den' den, Nat.mul_right_comm den _ den']
        exact roundDiv_mono _ h
      omega
  rw [nearest_eq_min, nearest_eq_min]
  omega

theorem nearest_le_infinite (num den : Nat) : nearest num den ≤ infinite :=
  Nat.min_le_right _ _

/-! ## Units of rounded numbers -/

/-- A carry into the next scale is a number of the next scale. -/
theorem units_of_significand {k r : Nat} (hr : r ≤ 2 ^ 53) (hk : k = 0 ∨ 2 ^ 52 ≤ r) :
    units (k * 2 ^ 52 + r) = r * 2 ^ k := by
  rw [units_eq]
  rcases Nat.lt_or_ge r (2 ^ 52) with hsub | hnormal
  · have hzero : k = 0 := hk.resolve_right (by omega)
    subst hzero
    rw [if_pos (by omega)]
    omega
  · rcases Nat.lt_or_eq_of_le hr with hlt | heq
    · have hdiv : (k * 2 ^ 52 + r) / 2 ^ 52 = k + 1 := by omega
      have hmod : (k * 2 ^ 52 + r) % 2 ^ 52 + 2 ^ 52 = r := by omega
      rw [hdiv, hmod, if_neg (Nat.succ_ne_zero k), Nat.add_sub_cancel]
    · have hdiv : (k * 2 ^ 52 + r) / 2 ^ 52 = k + 2 := by omega
      have hmod : (k * 2 ^ 52 + r) % 2 ^ 52 = 0 := by omega
      have hexp : k + 2 - 1 = k + 1 := by omega
      rw [hdiv, hmod, if_neg (by omega), heq, Nat.zero_add, hexp, ← Nat.pow_add, ← Nat.pow_add]
      congr 1
      omega

theorem units_infinite : units infinite = 2 ^ 52 * 2 ^ 2046 := by
  rw [units_eq, infinite_eq, Nat.mul_div_cancel _ (Nat.two_pow_pos _), Nat.mul_mod_left,
    if_neg (by decide), Nat.zero_add]

theorem units_nearest_le (num den : Nat) :
    units (nearest num den) ≤ significand num den * 2 ^ scale num den := by
  have hr := significand_le num den
  have hk := scale_eq_zero_or_le_significand num den
  rw [nearest_eq_min]
  rcases Nat.lt_or_ge (scale num den * 2 ^ 52 + significand num den) infinite with hlt | hge
  · rw [Nat.min_eq_left hlt.le, units_of_significand hr hk]
  · rw [Nat.min_eq_right hge]
    rcases Nat.lt_or_ge (scale num den) 2046 with hsmall | hlarge
    · have hcarry : infinite = scale num den * 2 ^ 52 + significand num den := by
        rw [infinite_eq] at hge ⊢
        omega
      rw [hcarry, units_of_significand hr hk]
    · rw [units_infinite]
      have hpositive : scale num den ≠ 0 := by omega
      generalize 2046 = top at hlarge
      exact Nat.mul_le_mul (hk.resolve_left hpositive) (Nat.pow_le_pow_right (by decide) hlarge)

theorem units_nearest {num den : Nat} (h : nearest num den ≠ infinite) :
    units (nearest num den) = significand num den * 2 ^ scale num den := by
  rw [nearest_eq_min] at h ⊢
  have hlt : scale num den * 2 ^ 52 + significand num den < infinite := by omega
  rw [Nat.min_eq_left hlt.le, units_of_significand (significand_le num den)
    (scale_eq_zero_or_le_significand num den)]

/-! ## Amounts -/

/-- The number with a magnitude. The one behind the largest double stands for infinity. -/
def amount (magnitude : Nat) : ℚ :=
  units magnitude / 2 ^ places

theorem amount_nonneg (m : Nat) : 0 ≤ amount m := by
  unfold amount
  positivity

@[simp]
theorem amount_zero : amount 0 = 0 := by
  simp [amount, units_eq]

theorem amount_infinite : amount infinite = 2 ^ 1024 := by
  have hexp : 52 + 2046 = 1024 + places := by rw [places_eq]
  rw [amount, units_infinite, ← Nat.pow_add, hexp, Nat.cast_pow, pow_add]
  exact mul_div_cancel_right₀ _ (by positivity)

/-- The fraction of units `num / den` as a number. -/
def ofUnits (num den : Nat) : ℚ :=
  num / den / 2 ^ places

/-- What one rounding adds or takes away, as a part of the number. -/
def loss : ℚ :=
  1 / 2 ^ 53

/-- What one rounding of a subnormal number adds or takes away. -/
def halfUnit : ℚ :=
  1 / 2 / 2 ^ places

/-- The least number that is rounded in its own place. -/
def leastNormal : ℚ :=
  1 / 2 ^ 1022

theorem leastNormal_le_one : leastNormal ≤ 1 :=
  (div_le_one (pow_pos two_pos 1022)).mpr (one_le_pow₀ one_le_two)

theorem loss_pos : 0 < loss := by
  unfold loss
  positivity

theorem loss_lt_one : loss < 1 := by
  norm_num [loss]

theorem halfUnit_pos : 0 < halfUnit := by
  unfold halfUnit
  positivity

section
variable {num den : Nat}

/-- The last bit of a normal number. -/
theorem scale_le_of_normal (h : 2 ^ 52 ≤ num / den) :
    (den * 2 ^ scale num den : ℚ) ≤ num / 2 ^ 52 := by
  have hscale : den * 2 ^ scale num den * 2 ^ 52 ≤ num := by
    calc den * 2 ^ scale num den * 2 ^ 52 = 2 ^ (52 + scale num den) * den := by
          rw [Nat.pow_add]
          ac_rfl
      _ ≤ num / den * den := Nat.mul_le_mul_right _ (two_pow_scale_le h)
      _ ≤ num := Nat.div_mul_le_self num den
  rw [le_div_iff₀ (by positivity)]
  exact_mod_cast hscale

theorem scale_le (num den : Nat) : (den * 2 ^ scale num den : ℚ) ≤ num / 2 ^ 52 + den := by
  rcases Nat.lt_or_ge (num / den) (2 ^ 52) with hlt | hge
  · rw [scale_of_lt hlt, pow_zero, mul_one]
    exact le_add_of_nonneg_left (by positivity)
  · exact (scale_le_of_normal hge).trans (le_add_of_nonneg_right (Nat.cast_nonneg _))

theorem units_nearest_mul_le (num : Nat) (hden : 0 < den) :
    (2 * (units (nearest num den) * den) : ℚ) ≤ 2 * num + den * 2 ^ scale num den := by
  have hround := two_mul_roundDiv_le num (Nat.mul_pos hden (Nat.two_pow_pos (scale num den)))
  have hunits := Nat.mul_le_mul_right den (units_nearest_le num den)
  have hassoc : significand num den * 2 ^ scale num den * den
      = significand num den * (den * 2 ^ scale num den) := by ac_rfl
  have hnat : 2 * (units (nearest num den) * den) ≤ 2 * num + den * 2 ^ scale num den := by
    unfold significand at hunits hassoc
    omega
  exact_mod_cast hnat

theorem le_units_nearest_mul (hden : 0 < den) (h : nearest num den ≠ infinite) :
    (2 * num : ℚ) ≤ 2 * (units (nearest num den) * den) + den * 2 ^ scale num den := by
  have hround := le_two_mul_roundDiv num (Nat.mul_pos hden (Nat.two_pow_pos (scale num den)))
  have hassoc : significand num den * 2 ^ scale num den * den
      = significand num den * (den * 2 ^ scale num den) := by ac_rfl
  have hnat : 2 * num ≤ 2 * (units (nearest num den) * den) + den * 2 ^ scale num den := by
    rw [units_nearest h, hassoc]
    exact hround
  exact_mod_cast hnat

/-- A bound on units is a bound on numbers. -/
theorem amount_le_of_mul_le {m : Nat} {a b : ℚ} (hden : 0 < den)
    (h : units m * den ≤ num * a + den * b) : amount m ≤ ofUnits num den * a + b / 2 ^ places := by
  have hpos : (0 : ℚ) < den := by exact_mod_cast hden
  have hunits : (units m : ℚ) ≤ num / den * a + b := by
    calc (units m : ℚ) ≤ (num * a + den * b) / den := (le_div_iff₀ hpos).mpr h
      _ = num / den * a + b := by field_simp
  calc amount m ≤ (num / den * a + b) / 2 ^ places :=
        div_le_div_of_nonneg_right hunits (by positivity)
    _ = ofUnits num den * a + b / 2 ^ places := by
        rw [ofUnits]
        ring

theorem le_amount_of_le_mul {m : Nat} {a b : ℚ} (hden : 0 < den)
    (h : num * a ≤ units m * den + den * b) : ofUnits num den * a ≤ amount m + b / 2 ^ places := by
  have hpos : (0 : ℚ) < den := by exact_mod_cast hden
  have hunits : num / den * a ≤ (units m : ℚ) + b := by
    calc num / den * a = num * a / den := by ring
      _ ≤ (units m * den + den * b) / den := div_le_div_of_nonneg_right h hpos.le
      _ = units m + b := by field_simp
  calc ofUnits num den * a = num / den * a / 2 ^ places := by
        rw [ofUnits]
        ring
    _ ≤ (units m + b) / 2 ^ places := div_le_div_of_nonneg_right hunits (by positivity)
    _ = amount m + b / 2 ^ places := add_div _ _ _

theorem amount_nearest_le (hden : 0 < den) :
    amount (nearest num den) ≤ ofUnits num den * (1 + loss) + halfUnit := by
  refine amount_le_of_mul_le hden ?_
  have hscale := scale_le num den
  have hunits := units_nearest_mul_le num hden
  unfold loss
  linarith

theorem le_amount_nearest (hden : 0 < den) (h : nearest num den ≠ infinite) :
    ofUnits num den * (1 - loss) ≤ amount (nearest num den) + halfUnit := by
  refine le_amount_of_le_mul hden ?_
  have hscale := scale_le num den
  have hunits := le_units_nearest_mul hden h
  unfold loss
  linarith

theorem normal_of_le_ofUnits (hden : 0 < den) (h : leastNormal ≤ ofUnits num den) :
    2 ^ 52 ≤ num / den := by
  have hexp : 2 ^ places = (2 ^ 52 * 2 ^ 1022 : ℚ) := by rw [← pow_add, places_eq]
  have hpos : (0 : ℚ) < den := by exact_mod_cast hden
  rw [leastNormal, ofUnits, hexp, div_le_div_iff₀ (by positivity) (by positivity), one_mul,
    mul_le_mul_iff_left₀ (by positivity), le_div_iff₀ hpos] at h
  rw [Nat.le_div_iff_mul_le hden]
  exact_mod_cast h

theorem amount_nearest_le_of_normal (hden : 0 < den) (h : leastNormal ≤ ofUnits num den) :
    amount (nearest num den) ≤ ofUnits num den * (1 + loss) := by
  have hscale := scale_le_of_normal (normal_of_le_ofUnits hden h)
  have hunits := units_nearest_mul_le num hden
  rw [← add_zero (_ * _), ← zero_div (2 ^ places)]
  refine amount_le_of_mul_le hden ?_
  unfold loss
  linarith

theorem le_amount_nearest_of_normal (hden : 0 < den) (hfinite : nearest num den ≠ infinite)
    (h : leastNormal ≤ ofUnits num den) :
    ofUnits num den * (1 - loss) ≤ amount (nearest num den) := by
  have hscale := scale_le_of_normal (normal_of_le_ofUnits hden h)
  have hunits := le_units_nearest_mul hden hfinite
  rw [← add_zero (amount _), ← zero_div (2 ^ places)]
  refine le_amount_of_le_mul hden ?_
  unfold loss
  linarith

end

end ColumnCalc.Number
