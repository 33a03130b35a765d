import ColumnCalc.Proofs.Expr.Digits

/-!
# Literals put together

The mantissa of a literal is the sum of its whole part and its fraction, each computed on its own,
and its value is the product with the sign and a power of ten. If no part overflows the value is
what the product of the two is rounded to (`value_of_finite`). If one does, the value is infinite,
or no number where the power's factor is zero (`value_of_overflows`).
-/

namespace ColumnCalc

namespace Literal

open Number

/-! ## Mantissas -/

/-- The whole part and the fraction together. -/
def mantissa (l : Literal) : Float :=
  digitsFloat l.whole + fractionFloat l.fraction

/-- The whole part or the fraction, read as a whole number, is too large for a double. -/
def Overflows (l : Literal) : Prop :=
  (digitsFloat l.whole).isInf = true ∨ (digitsFloat l.fraction).isInf = true

/-- The number that the whole part and the fraction stand for. -/
def exactMantissa (l : Literal) : ℚ :=
  digitsValue l.whole + digitsValue l.fraction / 10 ^ l.fraction.length

section
variable {l : Literal}

theorem exactMantissa_nonneg (l : Literal) : 0 ≤ l.exactMantissa := by
  unfold exactMantissa
  positivity

theorem mantissa_of_overflows (hwhole : ∀ c ∈ l.whole, c.isDigit = true)
    (hfraction : ∀ c ∈ l.fraction, c.isDigit = true) (h : l.Overflows) :
    isNegative l.mantissa = false ∧ magnitude l.mantissa = infinite := by
  rw [Overflows, isInf_iff, isInf_iff] at h
  obtain ⟨hsign, hnumber⟩ := digitsFloat_number hwhole
  have hfractionNumber : isNegative (fractionFloat l.fraction) = false ∧
      magnitude (fractionFloat l.fraction) ≤ infinite := by
    by_cases hinfinite : magnitude (digitsFloat l.fraction) = infinite
    · obtain ⟨hs, hm⟩ := fractionFloat_of_infinite hfraction hinfinite
      exact ⟨hs, hm.le⟩
    · obtain ⟨hs, hm, -⟩ := fractionFloat_of_finite hfraction hinfinite
      exact ⟨hs, hm.le⟩
  by_cases hinfinite : magnitude (digitsFloat l.whole) = infinite
  · obtain ⟨hm, hs⟩ := infinite_add hinfinite hfractionNumber.2 hsign hfractionNumber.1
    exact ⟨hs, hm⟩
  · have hsum : l.mantissa = fractionFloat l.fraction :=
      add_infinite (Nat.lt_of_le_of_ne hnumber hinfinite)
        (fractionFloat_of_infinite hfraction (h.resolve_left hinfinite)).2
    rw [hsum]
    exact fractionFloat_of_infinite hfraction (h.resolve_left hinfinite)

/-- The largest double and a fraction are still finite. -/
theorem finite_of_size_le {v : ℚ} (hv : v + 2 ^ 971 ≤ 2 ^ 1024) :
    (v + 2) * (1 + loss) + halfUnit < 2 ^ 1024 := by
  have hexp : (2 ^ 1024 : ℚ) = 2 ^ 53 * 2 ^ 971 := by rw [← pow_add]
  have hlast : (2 ^ 60 : ℚ) ≤ 2 ^ 971 := pow_le_pow_right₀ one_le_two (by decide)
  have hhalf : halfUnit ≤ 1 := by linarith [two_halfUnit_le, trifle_le, halfUnit_pos]
  rw [hexp] at hv ⊢
  generalize (2 ^ 971 : ℚ) = a at hv hlast ⊢
  norm_num [loss] at hv hlast ⊢
  linarith

theorem mantissa_of_not_overflows (hwhole : ∀ c ∈ l.whole, c.isDigit = true)
    (hfraction : ∀ c ∈ l.fraction, c.isDigit = true) (h : ¬ l.Overflows) :
    isNegative l.mantissa = false ∧ magnitude l.mantissa < infinite ∧
      size l.mantissa ≤ l.exactMantissa * (1 + loss) ^ 1617 + 5 * trifle := by
  rw [Overflows, isInf_iff, isInf_iff, not_or] at h
  obtain ⟨hsign, hnumber⟩ := digitsFloat_number hwhole
  obtain ⟨hsign', hfinite', hsize'⟩ := fractionFloat_of_finite hfraction h.2
  have hfinite := Nat.lt_of_le_of_ne hnumber h.1
  have hrounds := rounds_add hfinite hfinite' hsign hsign'
  have hsum := (add_of_finite hfinite hfinite' hsign hsign').2
  refine ⟨hsum, ?_, ?_⟩
  · refine (size_lt_iff hrounds.magnitude_le_infinite).mp ?_
    calc size l.mantissa ≤ (size (digitsFloat l.whole) + size (fractionFloat l.fraction))
          * (1 + loss) + halfUnit := hrounds.size_le
      _ ≤ (size (digitsFloat l.whole) + 2) * (1 + loss) + halfUnit := add_le_add_left
        (mul_le_mul_of_nonneg_right (add_le_add_right (size_fractionFloat_le_two hfraction h.2) _)
          one_add_loss_nonneg) _
      _ < 2 ^ 1024 := finite_of_size_le (size_add_le_of_finite hfinite)
  · have hwholeSize : size (digitsFloat l.whole) ≤ digitsValue l.whole * (1 + loss) ^ 1616 :=
      (size_digitsFloat_le hwhole h.1).trans (mul_le_mul_of_nonneg_left
        (pow_loss_mono (by decide)) (Nat.cast_nonneg _))
    have hbound := hrounds.size_le
    rw [exactMantissa, pow_succ]
    generalize (1 + loss) ^ 1616 = p at hsize' hwholeSize ⊢
    have hexact : size (digitsFloat l.whole) + size (fractionFloat l.fraction)
        ≤ (digitsValue l.whole + digitsValue l.fraction / 10 ^ l.fraction.length) * p
          + 2 * trifle := by
      rw [add_mul, add_assoc]
      exact add_le_add hwholeSize hsize'
    have htrifle : 2 * trifle * (1 + loss) ≤ 2 * trifle * 2 :=
      mul_le_mul_of_nonneg_left (by linarith [loss_lt_one]) (by linarith [trifle_pos])
    calc size l.mantissa ≤ (size (digitsFloat l.whole) + size (fractionFloat l.fraction))
          * (1 + loss) + halfUnit := hbound
      _ ≤ ((digitsValue l.whole + digitsValue l.fraction / 10 ^ l.fraction.length) * p
          + 2 * trifle) * (1 + loss) + halfUnit :=
        add_le_add_left (mul_le_mul_of_nonneg_right hexact one_add_loss_nonneg) _
      _ = (digitsValue l.whole + digitsValue l.fraction / 10 ^ l.fraction.length)
          * (p * (1 + loss)) + (2 * trifle * (1 + loss) + halfUnit) := by ring
      _ ≤ (digitsValue l.whole + digitsValue l.fraction / 10 ^ l.fraction.length)
          * (p * (1 + loss)) + 5 * trifle :=
        add_le_add_right (by linarith [two_halfUnit_le, halfUnit_pos]) _

end

/-! ## Signs and reciprocals -/

/-- Every literal is multiplied by one of these. -/
def unit (negative : Bool) : Float :=
  if negative then -1.0 else 1.0

theorem unit_number (negative : Bool) : magnitude (unit negative) = magnitude 1.0 ∧
    isNegative (unit negative) = negative := by
  cases negative <;> exact ⟨rfl, rfl⟩

theorem unit_mul {x : Float} (hx : magnitude x ≤ infinite) (negative : Bool) :
    magnitude (unit negative * x) = magnitude x ∧
      isNegative (unit negative * x) = (negative != isNegative x) := by
  obtain ⟨hm, hs⟩ := unit_number negative
  have hfinite : magnitude (unit negative) < infinite := hm ▸ one_number.1
  rcases Nat.lt_or_eq_of_le hx with hlt | heq
  · have hrounds := rounds_mul hfinite hlt
    have hsize : size (unit negative) * size x = size x := by
      have hone : size (unit negative) = size 1.0 := congrArg amount hm
      rw [hone, size_one, one_mul]
    rw [hsize] at hrounds
    refine ⟨Nat.le_antisymm (hrounds.mono (rounds_self hlt) le_rfl)
      ((rounds_self hlt).mono hrounds le_rfl), ?_⟩
    rw [(mul_of_finite hfinite hlt).2, hs]
  · obtain ⟨hm', hs'⟩ := mul_infinite_of_finite hfinite (hm ▸ one_number.2.1) heq
    rw [hm', heq, hs', hs]
    exact ⟨rfl, rfl⟩

/-- The reciprocal of the largest double is more than half a unit. -/
theorem halfUnit_lt : halfUnit < 1 / 2 ^ 1024 * (1 - loss) := by
  have hlt : (2 ^ 1024 : ℚ) < 2 ^ places :=
    pow_lt_pow_right₀ one_lt_two (by rw [places_eq]; decide)
  calc halfUnit = 1 / 2 ^ places * (1 / 2) := by
        rw [halfUnit]
        ring
    _ < 1 / 2 ^ 1024 * (1 / 2) :=
        mul_lt_mul_of_pos_right (one_div_lt_one_div_of_lt (by positivity) hlt) (by norm_num)
    _ ≤ 1 / 2 ^ 1024 * (1 - loss) :=
        mul_le_mul_of_nonneg_left (by norm_num [loss]) (by positivity)

section
variable {n : Nat}

/-- The reciprocal of a finite power of ten is not lost. -/
theorem reciprocal_of_le (h : n ≤ 308) : isNegative (powerOfTen true n) = false ∧
    magnitude (powerOfTen true n) < infinite ∧ magnitude (powerOfTen true n) ≠ 0 ∧
      size (powerOfTen true n) ≤ 1 := by
  have hwithin := within_powerOfTen n
  have hfinite := hwithin.lt_infinite fun hinfinite =>
    absurd (magnitude_powerOfTen_eq_iff.mp hinfinite) (by omega)
  obtain ⟨hone, hne, hsign⟩ := one_number
  have hrounds := rounds_div hone hfinite hwithin.magnitude_ne_zero
  have hs := (div_of_finite hone hfinite hwithin.magnitude_ne_zero).2
  rw [hsign, hwithin.sign] at hs
  rw [size_one] at hrounds
  rw [powerOfTen_true]
  have hle : 1 / size (powerOfTen false n) ≤ size 1.0 := by
    rw [size_one]
    exact div_le_one_of_le₀ hwithin.one_le (size_nonneg _)
  have hm := hrounds.mono (rounds_self hone) hle
  refine ⟨hs, hm.trans_lt hone, fun hzero => ?_, ?_⟩
  · have hsize := hrounds.le_size (hm.trans_lt hone).ne
    rw [(size_eq_zero_iff hrounds.magnitude_le_infinite).mpr hzero, zero_add] at hsize
    have hrecip : 1 / 2 ^ 1024 ≤ 1 / size (powerOfTen false n) := one_div_le_one_div_of_le
      (zero_lt_one.trans_le hwithin.one_le) ((size_lt_iff hwithin.number).mpr hfinite).le
    exact absurd (halfUnit_lt.trans_le
      (mul_le_mul_of_nonneg_right hrecip one_sub_loss_nonneg)) (not_lt.mpr hsize)
  · rw [← size_one]
    exact hrounds.size_mono (rounds_self hone) hle

theorem reciprocal_of_lt (h : 309 ≤ n) :
    isNegative (powerOfTen true n) = false ∧ magnitude (powerOfTen true n) = 0 := by
  obtain ⟨hone, -, hsign⟩ := one_number
  obtain ⟨hm, hs⟩ := div_infinite hone (magnitude_powerOfTen_eq_iff.mpr h)
  rw [hsign, (within_powerOfTen n).sign] at hs
  exact ⟨hs, hm⟩

end

/-! ## Values -/

theorem value_eq (l : Literal) : l.value =
    if l.mantissa == 0.0 then unit l.negative * 0.0
    else unit l.negative * l.mantissa * powerOfTen l.powerNegative (digitsValue l.power) := rfl

/-- The factor that the power of a literal stands for. -/
def factor (l : Literal) : Float :=
  powerOfTen l.powerNegative (digitsValue l.power)

theorem factor_sign (l : Literal) : isNegative l.factor = false := by
  unfold factor
  cases l.powerNegative with
  | false => exact (within_powerOfTen _).sign
  | true =>
    rcases Nat.lt_or_ge (digitsValue l.power) 309 with hlt | hge
    · exact (reciprocal_of_le (by omega)).1
    · exact (reciprocal_of_lt hge).1

theorem factor_eq_zero_iff (l : Literal) :
    magnitude l.factor = 0 ↔ l.powerNegative = true ∧ 309 ≤ digitsValue l.power := by
  unfold factor
  cases l.powerNegative with
  | false =>
    have hne := (within_powerOfTen (digitsValue l.power)).magnitude_ne_zero
    exact ⟨(absurd · hne), fun h => nomatch h.1⟩
  | true =>
    rcases Nat.lt_or_ge (digitsValue l.power) 309 with hlt | hge
    · have hne := (reciprocal_of_le (n := digitsValue l.power) (by omega)).2.2.1
      exact ⟨(absurd · hne), fun h => absurd h.2 (by omega)⟩
    · exact ⟨fun _ => ⟨rfl, hge⟩, fun _ => (reciprocal_of_lt hge).2⟩

theorem factor_eq_infinite_iff (l : Literal) :
    magnitude l.factor = infinite ↔ l.powerNegative = false ∧ 309 ≤ digitsValue l.power := by
  unfold factor
  cases l.powerNegative with
  | false =>
    rw [magnitude_powerOfTen_eq_iff]
    exact ⟨fun h => ⟨rfl, h⟩, And.right⟩
  | true =>
    refine ⟨fun h => ?_, fun h => nomatch h.1⟩
    rcases Nat.lt_or_ge (digitsValue l.power) 309 with hlt | hge
    · have hfinite := (reciprocal_of_le (n := digitsValue l.power) (by omega)).2.1
      omega
    · rw [(reciprocal_of_lt hge).2] at h
      exact absurd h (by decide)

theorem factor_le_infinite (l : Literal) : magnitude l.factor ≤ infinite := by
  unfold factor
  cases l.powerNegative with
  | false => exact (within_powerOfTen _).number
  | true =>
    rcases Nat.lt_or_ge (digitsValue l.power) 309 with hlt | hge
    · exact (reciprocal_of_le (by omega)).2.1.le
    · rw [(reciprocal_of_lt hge).2]
      exact Nat.zero_le _

section
variable {l : Literal}

/-- A mantissa that overflows is lost by the least powers of ten and stays infinite otherwise. -/
theorem value_of_overflows (hwhole : ∀ c ∈ l.whole, c.isDigit = true)
    (hfraction : ∀ c ∈ l.fraction, c.isDigit = true) (h : l.Overflows) :
    (magnitude l.factor = 0 → l.value.isNaN = true) ∧
      (magnitude l.factor ≠ 0 → magnitude l.value = infinite) := by
  obtain ⟨hs, hm⟩ := mantissa_of_overflows hwhole hfraction h
  have hbeq : ¬ (l.mantissa == 0.0) = true := by
    rw [beq_zero_iff, hm]
    decide
  have hsigned := (unit_mul hm.le l.negative).1.trans hm
  rw [value_eq, if_neg hbeq]
  exact ⟨isNaN_mul_of_zero hsigned,
    fun hne => (mul_of_infinite hsigned l.factor_le_infinite hne).1⟩

/-- A mantissa of zero stays zero. -/
theorem value_of_zero (h : magnitude l.mantissa = 0) :
    magnitude l.value = 0 ∧ isNegative l.value = l.negative := by
  have hsign := isNegative_zero
  have hnumber : magnitude 0.0 ≤ infinite := magnitude_zero ▸ Nat.zero_le _
  obtain ⟨hm, hs⟩ := unit_mul hnumber l.negative
  rw [value_eq, if_pos (beq_zero_iff.mpr h), hm, hs, hsign, magnitude_zero, Bool.bne_false]
  exact ⟨rfl, rfl⟩

/-- A mantissa that is finite is multiplied by a finite factor, and the result is rounded. -/
theorem value_of_finite (hwhole : ∀ c ∈ l.whole, c.isDigit = true)
    (hfraction : ∀ c ∈ l.fraction, c.isDigit = true) (h : ¬ l.Overflows)
    (hfactor : magnitude l.factor ≠ infinite) :
    Rounds l.value (size l.mantissa * size l.factor) ∧ isNegative l.value = l.negative := by
  obtain ⟨hs, hm, -⟩ := mantissa_of_not_overflows hwhole hfraction h
  by_cases hzero : magnitude l.mantissa = 0
  · obtain ⟨hvalue, hsign⟩ := value_of_zero hzero
    have hsmall : magnitude l.value < infinite := hvalue ▸ by decide
    have hself := rounds_self hsmall
    rw [size, hvalue, amount_zero] at hself
    rw [size, hzero, amount_zero, zero_mul]
    exact ⟨hself, hsign⟩
  · have hfinite := Nat.lt_of_le_of_ne l.factor_le_infinite hfactor
    obtain ⟨hm', hs'⟩ := unit_mul hm.le l.negative
    have hsigned : magnitude (unit l.negative * l.mantissa) < infinite := hm' ▸ hm
    have hsize : size (unit l.negative * l.mantissa) = size l.mantissa := congrArg amount hm'
    rw [value_eq, if_neg (mt beq_zero_iff.mp hzero)]
    refine ⟨hsize ▸ rounds_mul hsigned hfinite, ?_⟩
    have hsign := (mul_of_finite hsigned hfinite).2
    rw [hs', hs, l.factor_sign, Bool.bne_false, Bool.bne_false] at hsign
    exact hsign

/-- A mantissa that is finite makes a number. -/
theorem magnitude_value_le (hwhole : ∀ c ∈ l.whole, c.isDigit = true)
    (hfraction : ∀ c ∈ l.fraction, c.isDigit = true) (h : ¬ l.Overflows) :
    magnitude l.value ≤ infinite := by
  obtain ⟨-, hm, -⟩ := mantissa_of_not_overflows hwhole hfraction h
  by_cases hfactor : magnitude l.factor = infinite
  · by_cases hzero : magnitude l.mantissa = 0
    · exact (value_of_zero hzero).1 ▸ Nat.zero_le _
    · have hm' := (unit_mul hm.le l.negative).1
      rw [value_eq, if_neg (mt beq_zero_iff.mp hzero)]
      exact (mul_infinite_of_finite (hm' ▸ hm) (hm' ▸ hzero) hfactor).1.le
  · exact (value_of_finite hwhole hfraction h hfactor).1.magnitude_le_infinite

/-- The number that the text of a literal denotes. -/
def exact (l : Literal) : ℚ :=
  l.exactMantissa * (if l.powerNegative then 1 / 10 ^ digitsValue l.power
    else 10 ^ digitsValue l.power)

/-- A product with a power of ten, in a bound that leaves out the roundings. -/
theorem product_le {v m f : ℚ} {n : Nat} (hn : n ≤ 308) (hv : 0 ≤ v) (hm' : 0 ≤ m)
    (hm : m ≤ v * (1 + loss) ^ 1617 + 5 * trifle) (hf : f ≤ 10 ^ n * (1 + loss) ^ n)
    (hf' : 0 ≤ f) :
    m * f * (1 + loss) + halfUnit ≤ v * 10 ^ n * (1 + 1 / 2 ^ 40) + 2 ^ 300 := by
  have hroundings : (1 + loss) ^ 1617 * (1 + loss) ^ n * (1 + loss) ≤ 1 + 1 / 2 ^ 40 := by
    rw [← pow_add, ← pow_succ]
    exact pow_loss_le (by omega)
  have hpower : 10 ^ n * (1 + loss) ^ n * (1 + loss) ≤ 2 ^ 1024 := by
    rw [mul_assoc, ← pow_succ]
    exact (mul_le_mul_of_nonneg_left (pow_loss_le (by omega)) (by positivity)).trans
      (ten_pow_lt hn).le
  have hlost : 5 * trifle * (10 ^ n * (1 + loss) ^ n * (1 + loss)) + halfUnit ≤ 2 ^ 300 := by
    have hexact : trifle * 2 ^ 1024 = 2 ^ 48 := by
      have hexp : (2 ^ 1024 : ℚ) = 2 ^ 976 * 2 ^ 48 := by rw [← pow_add]
      rw [trifle, hexp, ← mul_assoc, one_div_mul_cancel (by positivity), one_mul]
    have hscaled : 5 * trifle * (10 ^ n * (1 + loss) ^ n * (1 + loss)) ≤ 5 * 2 ^ 48 := by
      rw [mul_assoc, ← hexact]
      exact mul_le_mul_of_nonneg_left (mul_le_mul_of_nonneg_left hpower trifle_pos.le)
        (by norm_num)
    have hhalf : halfUnit ≤ 2 ^ 48 := by
      have htiny := two_halfUnit_le.trans trifle_le
      linarith only [htiny, halfUnit_pos]
    calc 5 * trifle * (10 ^ n * (1 + loss) ^ n * (1 + loss)) + halfUnit
        ≤ 5 * 2 ^ 48 + 2 ^ 48 := add_le_add hscaled hhalf
      _ ≤ 2 ^ 60 := by norm_num
      _ ≤ 2 ^ 300 := pow_le_pow_right₀ one_le_two (by decide)
  generalize (1 + loss) ^ 1617 = p at hm hroundings
  generalize (1 + loss) ^ n = g at hf hroundings hpower hlost
  calc m * f * (1 + loss) + halfUnit
      ≤ (v * p + 5 * trifle) * (10 ^ n * g) * (1 + loss) + halfUnit := add_le_add_left
        (mul_le_mul_of_nonneg_right (mul_le_mul hm hf hf' (hm'.trans hm)) one_add_loss_nonneg) _
    _ = v * 10 ^ n * (p * g * (1 + loss))
        + (5 * trifle * (10 ^ n * g * (1 + loss)) + halfUnit) := by ring
    _ ≤ v * 10 ^ n * (1 + 1 / 2 ^ 40) + 2 ^ 300 := add_le_add
        (mul_le_mul_of_nonneg_left hroundings (by positivity)) hlost

theorem le_exact_of_infinite (hwhole : ∀ c ∈ l.whole, c.isDigit = true)
    (hfraction : ∀ c ∈ l.fraction, c.isDigit = true) (h : ¬ l.Overflows)
    (hfactor : magnitude l.factor ≠ infinite) (hvalue : magnitude l.value = infinite) :
    179769313486 * 10 ^ 297 ≤ l.exact := by
  obtain ⟨-, hm, hsize⟩ := mantissa_of_not_overflows hwhole hfraction h
  obtain ⟨hrounds, -⟩ := value_of_finite hwhole hfraction h hfactor
  cases hpower : l.powerNegative with
  | true =>
    -- a factor below one makes nothing infinite
    have hfactorSize : size l.factor ≤ 1 := by
      rw [factor, hpower]
      rcases Nat.lt_or_ge (digitsValue l.power) 309 with hlt | hge
      · exact (reciprocal_of_le (by omega)).2.2.2
      · rw [size, (reciprocal_of_lt hge).2, amount_zero]
        exact zero_le_one
    have hle := hrounds.mono (rounds_self hm) (mul_le_of_le_one_right (size_nonneg _) hfactorSize)
    omega
  | false =>
    have hn : digitsValue l.power ≤ 308 := by
      by_contra hlarge
      exact hfactor (l.factor_eq_infinite_iff.mpr ⟨hpower, by omega⟩)
    have hfactorSize : size l.factor
        ≤ 10 ^ digitsValue l.power * (1 + loss) ^ digitsValue l.power := by
      rw [factor, hpower]
      exact size_powerOfTen_le hn
    have hexact : l.exact = l.exactMantissa * 10 ^ digitsValue l.power := by
      rw [exact, hpower]
      rfl
    by_contra hlt
    have hbound := hrounds.size_le.trans
      (product_le hn l.exactMantissa_nonneg (size_nonneg _) hsize hfactorSize (size_nonneg _))
    rw [← hexact] at hbound
    have hsmall : size l.value < 2 ^ 1024 := by
      calc size l.value ≤ l.exact * (1 + 1 / 2 ^ 40) + 2 ^ 300 := hbound
        _ ≤ 179769313486 * 10 ^ 297 * (1 + 1 / 2 ^ 40) + 2 ^ 300 := add_le_add_left
          (mul_le_mul_of_nonneg_right (not_le.mp hlt).le (by positivity)) _
        _ < 2 ^ 1024 := low_digits_lt
    exact ((size_lt_iff hrounds.magnitude_le_infinite).mp hsmall).ne hvalue

end

end Literal

/-! ## Literals of the grammar -/

open Grammar Number

section
variable {s : List Char} {l : Literal}

theorem isDigit_of_isLiteral (h : IsLiteral s l) :
    (∀ c ∈ l.whole, c.isDigit = true) ∧ ∀ c ∈ l.fraction, c.isDigit = true := by
  obtain ⟨-, hwhole, hpoint, -⟩ := h
  refine ⟨(isDigits_iff.mp hwhole).2, ?_⟩
  cases hpoint with
  | absent => exact fun c hc => nomatch hc
  | present hfraction => exact (isDigits_iff.mp hfraction).2

theorem isDigits_of_all {ds : List Char} (hne : ds ≠ []) (h : ds.all Char.isDigit = true) :
    IsDigits ds :=
  isDigits_iff.mpr ⟨hne, List.all_eq_true.mp h⟩

theorem parse_of_isLiteral (h : IsLiteral s l) :
    Expr.parse (.ofList s) = .ok (.literal l.value) := by
  have hexpr := IsExpression.mk isBlanks_nil (isValue_additive (.literal h)) isBlanks_nil
  rw [List.nil_append, List.append_nil] at hexpr
  rw [expr_parse_eq_ok_iff, String.toList_ofList]
  exact hexpr

/--
Every literal is read as a number. It is no number exactly if its whole part or its fraction, read
as whole numbers, overflow and the power takes so much away that its factor is zero. It is infinite
only if one of the two overflows, if the power alone is infinite, or if the number that the text
denotes hardly is below the largest double. Which digits overflow can be seen from the first twelve.
-/
theorem literal_overflows_by_parts (h : IsLiteral s l) :
    Expr.parse (.ofList s) = .ok (.literal l.value) ∧
    (l.value.isNaN = true ↔
      l.Overflows ∧ l.powerNegative = true ∧ 309 ≤ digitsValue l.power) ∧
    (l.value.isInf = true →
      l.Overflows ∨ (l.powerNegative = false ∧ 309 ≤ digitsValue l.power) ∨
        179769313486 * 10 ^ 297 ≤ l.exact) ∧
    (l.Overflows →
      179769313486 * 10 ^ 297 ≤ digitsValue l.whole ∨
        179769313486 * 10 ^ 297 ≤ digitsValue l.fraction) ∧
    (179769313487 * 10 ^ 297 ≤ digitsValue l.whole ∨
        179769313487 * 10 ^ 297 ≤ digitsValue l.fraction →
      l.Overflows) := by
  obtain ⟨hwhole, hfraction⟩ := isDigit_of_isLiteral h
  have hlost := Literal.value_of_overflows hwhole hfraction
  refine ⟨parse_of_isLiteral h, ⟨fun hnan => ?_, fun ⟨hover, hpower⟩ => ?_⟩, fun hinf => ?_,
    fun hover => ?_, fun hlarge => ?_⟩
  · by_cases hover : l.Overflows
    · refine ⟨hover, l.factor_eq_zero_iff.mp ?_⟩
      by_contra hne
      exact (isNaN_iff.mp hnan).ne ((hlost hover).2 hne).symm
    · exact absurd (isNaN_iff.mp hnan)
        (Nat.not_lt.mpr (Literal.magnitude_value_le hwhole hfraction hover))
  · exact (hlost hover).1 (l.factor_eq_zero_iff.mpr hpower)
  · rw [isInf_iff] at hinf
    by_cases hover : l.Overflows
    · exact .inl hover
    · by_cases hfactor : magnitude l.factor = infinite
      · exact .inr (.inl (l.factor_eq_infinite_iff.mp hfactor))
      · exact .inr (.inr (Literal.le_exact_of_infinite hwhole hfraction hover hfactor hinf))
  · rw [Literal.Overflows, isInf_iff, isInf_iff] at hover
    exact hover.imp (Literal.le_of_magnitude_digitsFloat hwhole)
      (Literal.le_of_magnitude_digitsFloat hfraction)
  · rw [Literal.Overflows, isInf_iff, isInf_iff]
    exact hlarge.imp (Literal.magnitude_digitsFloat_of_le hwhole)
      (Literal.magnitude_digitsFloat_of_le hfraction)

end

/-- A literal of a few digits is an ordinary number. -/
theorem literal_overflows_by_parts_short :
    let l : Literal := ⟨false, ['2'], ['5'], false, ['3']⟩
    IsLiteral ['2', '.', '5', 'e', '3'] l ∧ Expr.parse "2.5e3" = .ok (.literal 2500.0) ∧
      l.value.isNaN = false := by
  intro l
  have htwo : IsDigits ['2'] := isDigits_of_all (List.cons_ne_nil _ _) (by decide)
  have hfive : IsDigits ['5'] := isDigits_of_all (List.cons_ne_nil _ _) (by decide)
  have hthree : IsDigits ['3'] := isDigits_of_all (List.cons_ne_nil _ _) (by decide)
  have hl : IsLiteral ['2', '.', '5', 'e', '3'] l :=
    .mk .absent htwo (.present hfive) (.present .absent hthree)
  obtain ⟨hparse, hnan, -⟩ := literal_overflows_by_parts hl
  have hvalue : l.value = 2500.0 := by decide +kernel
  rw [hvalue] at hparse
  refine ⟨hl, hparse, Bool.eq_false_iff.mpr fun h => ?_⟩
  exact nomatch (hnan.mp h).2.1

/-- A whole part that is a power of ten, divided by a power of ten. -/
theorem Literal.exact_of_zeros (k : Nat) {power : List Char} :
    Literal.exact ⟨false, ['1'] ++ List.replicate k '0', [], true, power⟩
      = 10 ^ k * (1 / 10 ^ digitsValue power) := by
  unfold Literal.exact Literal.exactMantissa
  rw [digitsValue_one_zeros, if_pos rfl]
  simp [digitsValue]

/-- A tenth of a power of ten. -/
theorem Literal.exact_of_tenth {power : List Char} :
    Literal.exact ⟨false, ['0'], ['1'], false, power⟩ = 1 / 10 * 10 ^ digitsValue power := by
  unfold Literal.exact Literal.exactMantissa
  simp [digitsValue, Nat.ofDigitChars]

/--
One is read as no number if it is written with so many zeros that its whole part is infinite and the
factor that takes them away is zero. A tenth of a number is infinite if the factor alone is.
-/
theorem ordinary_literals_lost :
    let one : Literal := ⟨false, ['1'] ++ List.replicate 309 '0', [], true, ['3', '0', '9']⟩
    let large : Literal := ⟨false, ['0'], ['1'], false, ['3', '0', '9']⟩
    (IsLiteral (['1'] ++ List.replicate 309 '0' ++ ['e', '-', '3', '0', '9']) one ∧
      one.exact = 1 ∧ one.value.isNaN = true) ∧
    IsLiteral ['0', '.', '1', 'e', '3', '0', '9'] large ∧
      large.exact = 10 ^ 308 ∧ large.value.isInf = true := by
  have hone : IsDigits ['1'] := isDigits_of_all (List.cons_ne_nil _ _) (by decide)
  have hpower : IsDigits ['3', '0', '9'] := isDigits_of_all (List.cons_ne_nil _ _) (by decide)
  have hthree : digitsValue ['3', '0', '9'] = 309 := by decide
  have hlong : IsDigits (['1'] ++ List.replicate 309 '0') :=
    isDigits_append (isDigits_iff.mp hone).2 isDigit_of_mem_zeros (List.cons_ne_nil _ _)
  have hl := IsLiteral.mk .absent hlong .absent (.present .minus hpower)
  rw [List.nil_append, List.append_nil] at hl
  obtain ⟨hwhole, hfraction⟩ := isDigit_of_isLiteral hl
  refine ⟨⟨hl, ?_, ?_⟩, .mk .absent isDigits_zero (.present hone) (.present .absent hpower), ?_,
    by decide +kernel⟩
  · rw [Literal.exact_of_zeros, hthree]
    exact mul_one_div_cancel (pow_ne_zero _ (by norm_num))
  · refine (Literal.value_of_overflows hwhole hfraction (.inl ?_)).1
      ((Literal.factor_eq_zero_iff _).mpr ⟨rfl, hthree.ge⟩)
    rw [isInf_iff]
    apply Literal.magnitude_digitsFloat_of_le hwhole
    refine (Literal.high_digits_le le_rfl).trans (Nat.le_of_eq ?_)
    exact (digitsValue_one_zeros 309).symm
  · have hexp : (10 ^ 309 : ℚ) = 10 * 10 ^ 308 := by rw [← pow_succ']
    rw [Literal.exact_of_tenth, hthree, hexp, ← mul_assoc, one_div_mul_cancel (by norm_num),
      one_mul]

end ColumnCalc
