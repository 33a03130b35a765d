import ColumnCalc.Proofs.Number.Arithmetic

/-!
# Sizes of doubles

The size of a double is its exact absolute value, a rational number (`size`). `Rounds x v` says that
`x` is what `v` is rounded to, up to the sign; products, quotients and sums are rounded results
(`rounds_mul`, `rounds_div`, `rounds_add`). A computation of several steps on numbers from one
upwards stays within a power of the relative error of a single step (`Within`).
-/

namespace ColumnCalc.Number

/-! ## Sizes -/

/-- The absolute value of a double; that of infinity is `2 ^ 1024`. -/
def size (x : Float) : ℚ :=
  amount (magnitude x)

theorem size_nonneg (x : Float) : 0 ≤ size x :=
  amount_nonneg _

theorem size_of_infinite {x : Float} (h : magnitude x = infinite) : size x = 2 ^ 1024 := by
  rw [size, h, amount_infinite]

theorem scale_two_pow (k : Nat) : scale (2 ^ (52 + k)) 1 = k := by
  apply scale_eq Nat.one_pos
  · rw [mul_one]
    exact Nat.pow_lt_pow_right (by decide) (by omega)
  · rw [mul_one]
    exact .inr le_rfl

theorem nearest_units_infinite : nearest (units infinite) 1 = infinite := by
  have hscale : scale (units infinite) 1 = 2046 := by
    rw [units_infinite, ← pow_add, scale_two_pow]
  have hsignificand := (scale_eq_zero_or_le_significand (units infinite) 1).resolve_left (by omega)
  rw [nearest_eq_min, hscale]
  apply Nat.min_eq_right
  calc infinite = 2046 * 2 ^ 52 + 2 ^ 52 := by decide
    _ ≤ 2046 * 2 ^ 52 + significand (units infinite) 1 := Nat.add_le_add_left hsignificand _

/-- Magnitudes are ordered as the numbers they stand for. -/
theorem units_le_units_iff {m m' : Nat} (h : m ≤ infinite) (h' : m' ≤ infinite) :
    units m ≤ units m' ↔ m ≤ m' := by
  have hself : ∀ m ≤ infinite, nearest (units m) 1 = m := by
    intro m hm
    rcases Nat.lt_or_eq_of_le hm with hlt | rfl
    · exact nearest_units_one hlt
    · exact nearest_units_infinite
  have hmono : ∀ m ≤ infinite, ∀ m' ≤ infinite, units m ≤ units m' → m ≤ m' := by
    intro m hm m' hm' hle
    rw [← hself m hm, ← hself m' hm']
    apply nearest_mono Nat.one_pos Nat.one_pos
    rwa [mul_one, mul_one]
  refine ⟨hmono m h m' h', fun hle => ?_⟩
  by_contra hlt
  have heq := Nat.le_antisymm hle (hmono m' h' m h (by omega))
  rw [heq] at hlt
  exact hlt le_rfl

theorem amount_le_amount_iff {m m' : Nat} (h : m ≤ infinite) (h' : m' ≤ infinite) :
    amount m ≤ amount m' ↔ m ≤ m' := by
  rw [amount, amount, div_le_div_iff_of_pos_right (by positivity), Nat.cast_le,
    units_le_units_iff h h']

section
variable {x y : Float} {v w : ℚ}

theorem size_eq_zero_iff (h : magnitude x ≤ infinite) : size x = 0 ↔ magnitude x = 0 := by
  refine ⟨fun hsize => ?_, fun hzero => by rw [size, hzero, amount_zero]⟩
  have hle : amount (magnitude x) ≤ amount 0 := by rw [amount_zero, ← hsize, size]
  exact Nat.le_zero.mp ((amount_le_amount_iff h (Nat.zero_le _)).mp hle)

theorem size_lt_iff (h : magnitude x ≤ infinite) : size x < 2 ^ 1024 ↔ magnitude x < infinite := by
  rw [← amount_infinite, size, ← not_le, amount_le_amount_iff le_rfl h, not_le]

/-! ## Rounded results -/

/-- `x` has the magnitude that `v` is rounded to. -/
def Rounds (x : Float) (v : ℚ) : Prop :=
  ∃ num den : Nat, 0 < den ∧ v = ofUnits num den ∧ magnitude x = nearest num den

theorem rounds_self (h : magnitude x < infinite) : Rounds x (size x) := by
  refine ⟨units (magnitude x), 1, Nat.one_pos, ?_, (nearest_units_one h).symm⟩
  rw [size, amount, ofUnits, Nat.cast_one, div_one]

theorem rounds_mul (hx : magnitude x < infinite) (hy : magnitude y < infinite) :
    Rounds (x * y) (size x * size y) := by
  refine ⟨_, _, Nat.two_pow_pos _, ?_, (mul_of_finite hx hy).1⟩
  rw [size, size, amount, amount, ofUnits]
  push_cast
  ring

theorem rounds_div (hx : magnitude x < infinite) (hy : magnitude y < infinite)
    (hne : magnitude y ≠ 0) : Rounds (x / y) (size x / size y) := by
  have hpos : 0 < units (magnitude y) := by
    by_contra hzero
    have hle : units (magnitude y) ≤ units 0 := by
      rw [units_zero]
      omega
    exact hne (Nat.le_zero.mp ((units_le_units_iff hy.le (Nat.zero_le _)).mp hle))
  have hpos' : (0 : ℚ) < units (magnitude y) := by exact_mod_cast hpos
  refine ⟨_, _, hpos, ?_, (div_of_finite hx hy hne).1⟩
  rw [size, size, amount, amount, ofUnits]
  push_cast
  field_simp

theorem rounds_add (hx : magnitude x < infinite) (hy : magnitude y < infinite)
    (hposx : isNegative x = false) (hposy : isNegative y = false) :
    Rounds (x + y) (size x + size y) := by
  refine ⟨_, _, Nat.one_pos, ?_, (add_of_finite hx hy hposx hposy).1⟩
  rw [size, size, amount, amount, ofUnits]
  push_cast
  ring

namespace Rounds

theorem magnitude_le_infinite (h : Rounds x v) : magnitude x ≤ infinite := by
  obtain ⟨num, den, -, -, hm⟩ := h
  exact hm ▸ nearest_le_infinite num den

theorem mono (hx : Rounds x v) (hy : Rounds y w) (h : v ≤ w) : magnitude x ≤ magnitude y := by
  obtain ⟨num, den, hden, rfl, hm⟩ := hx
  obtain ⟨num', den', hden', rfl, hm'⟩ := hy
  have hpos : (0 : ℚ) < den := by exact_mod_cast hden
  have hpos' : (0 : ℚ) < den' := by exact_mod_cast hden'
  rw [ofUnits, ofUnits, div_le_div_iff_of_pos_right (by positivity),
    div_le_div_iff₀ hpos hpos'] at h
  rw [hm, hm']
  exact nearest_mono hden hden' (by exact_mod_cast h)

theorem size_mono (hx : Rounds x v) (hy : Rounds y w) (h : v ≤ w) : size x ≤ size y :=
  (amount_le_amount_iff hx.magnitude_le_infinite hy.magnitude_le_infinite).mpr (hx.mono hy h)

theorem size_le (h : Rounds x v) : size x ≤ v * (1 + loss) + halfUnit := by
  obtain ⟨num, den, hden, rfl, hm⟩ := h
  rw [size, hm]
  exact amount_nearest_le hden

theorem le_size (h : Rounds x v) (hfinite : magnitude x ≠ infinite) :
    v * (1 - loss) ≤ size x + halfUnit := by
  obtain ⟨num, den, hden, rfl, hm⟩ := h
  rw [hm] at hfinite
  rw [size, hm]
  exact le_amount_nearest hden hfinite

theorem size_le_of_normal (h : Rounds x v) (hv : leastNormal ≤ v) :
    size x ≤ v * (1 + loss) := by
  obtain ⟨num, den, hden, rfl, hm⟩ := h
  rw [size, hm]
  exact amount_nearest_le_of_normal hden hv

theorem le_size_of_normal (h : Rounds x v) (hfinite : magnitude x ≠ infinite)
    (hv : leastNormal ≤ v) : v * (1 - loss) ≤ size x := by
  obtain ⟨num, den, hden, rfl, hm⟩ := h
  rw [hm] at hfinite
  rw [size, hm]
  exact le_amount_nearest_of_normal hden hfinite hv

end Rounds

end

/-! ## Whole numbers -/

theorem size_of_units {x : Float} {n : Nat} (h : units (magnitude x) = n * 2 ^ places) :
    size x = n := by
  rw [size, amount, h]
  push_cast
  exact mul_div_cancel_right₀ _ (by positivity)

theorem units_ofNat : ∀ n ≤ 10, units (magnitude (Float.ofNat n)) = n * 2 ^ places ∧
    isNegative (Float.ofNat n) = false ∧ magnitude (Float.ofNat n) < infinite := by
  decide +kernel

/-! ## Roundings one after another -/

theorem one_sub_loss_nonneg : 0 ≤ 1 - loss :=
  sub_nonneg.mpr loss_lt_one.le

theorem one_le_one_add_loss : 1 ≤ 1 + loss :=
  le_add_of_nonneg_right loss_pos.le

theorem one_add_loss_nonneg : 0 ≤ 1 + loss :=
  zero_le_one.trans one_le_one_add_loss

theorem one_le_pow_loss (k : Nat) : 1 ≤ (1 + loss) ^ k :=
  one_le_pow₀ one_le_one_add_loss

theorem pow_loss_mono {j k : Nat} (h : j ≤ k) : (1 + loss) ^ j ≤ (1 + loss) ^ k :=
  pow_le_pow_right₀ one_le_one_add_loss h

theorem pow_loss_le_one (k : Nat) : (1 - loss) ^ k ≤ 1 :=
  pow_le_one₀ one_sub_loss_nonneg (sub_le_self _ loss_pos.le)

theorem pow_loss_nonneg (k : Nat) : 0 ≤ (1 - loss) ^ k :=
  pow_nonneg one_sub_loss_nonneg k

/-- A number from one upwards, perhaps infinite, that `k` roundings may have made of `v`. -/
structure Within (k : Nat) (v : ℚ) (x : Float) : Prop where
  sign : isNegative x = false
  number : magnitude x ≤ infinite
  one_le : 1 ≤ size x
  size_le : size x ≤ v * (1 + loss) ^ k
  le_size : magnitude x = infinite ∨ v * (1 - loss) ^ k ≤ size x

theorem within_ofNat {n : Nat} (hpos : 0 < n) (h : n ≤ 10) : Within 0 n (Float.ofNat n) := by
  obtain ⟨hunits, hsign, hfinite⟩ := units_ofNat n h
  have hsize := size_of_units hunits
  refine ⟨hsign, hfinite.le, ?_, ?_, .inr ?_⟩
  · rw [hsize]
    exact_mod_cast hpos
  · rw [hsize, pow_zero, mul_one]
  · rw [hsize, pow_zero, mul_one]

section
variable {x y : Float} {v w : ℚ} {j k : Nat}

theorem Rounds.one_le (h : Rounds x v) (hv : 1 ≤ v) : 1 ≤ size x := by
  obtain ⟨hunits, -, hfinite⟩ := units_ofNat 1 (by decide)
  have hone : size (Float.ofNat 1) = 1 := by
    rw [size_of_units hunits, Nat.cast_one]
  have hmono : size (Float.ofNat 1) ≤ v → size (Float.ofNat 1) ≤ size x :=
    (rounds_self hfinite).size_mono h
  rw [hone] at hmono
  exact hmono hv

/-- One more rounding of a number from one upwards. -/
theorem Rounds.within (h : Rounds x v) (hsign : isNegative x = false) (hv : 1 ≤ v)
    (hupper : v ≤ w * (1 + loss) ^ k) (hlower : w * (1 - loss) ^ k ≤ v) :
    Within (k + 1) w x := by
  have hnormal : leastNormal ≤ v := leastNormal_le_one.trans hv
  refine ⟨hsign, h.magnitude_le_infinite, h.one_le hv, ?_, ?_⟩
  · calc size x ≤ v * (1 + loss) := h.size_le_of_normal hnormal
      _ ≤ w * (1 + loss) ^ k * (1 + loss) :=
        mul_le_mul_of_nonneg_right hupper one_add_loss_nonneg
      _ = w * (1 + loss) ^ (k + 1) := by rw [pow_succ, mul_assoc]
  · by_cases hfinite : magnitude x = infinite
    · exact .inl hfinite
    · refine .inr ?_
      calc w * (1 - loss) ^ (k + 1) = w * (1 - loss) ^ k * (1 - loss) := by
            rw [pow_succ, mul_assoc]
        _ ≤ v * (1 - loss) := mul_le_mul_of_nonneg_right hlower one_sub_loss_nonneg
        _ ≤ size x := h.le_size_of_normal hfinite hnormal

/-- Infinity is as far above as it has to be. -/
theorem within_infinite (hsign : isNegative x = false) (hx : magnitude x = infinite)
    (hw : 2 ^ 1024 ≤ w * (1 + loss) ^ k) : Within k w x := by
  refine ⟨hsign, hx.le, ?_, ?_, .inl hx⟩
  · rw [size_of_infinite hx]
    exact one_le_pow₀ one_le_two
  · rwa [size_of_infinite hx]

namespace Within

theorem pos (h : Within k v x) : 0 < v := by
  have hpow := one_le_pow_loss k
  have hle := h.one_le.trans h.size_le
  by_contra hneg
  have := mul_nonpos_of_nonpos_of_nonneg (not_lt.mp hneg) (zero_le_one.trans hpow)
  linarith

theorem magnitude_ne_zero (h : Within k v x) : magnitude x ≠ 0 := by
  intro hzero
  have hone := h.one_le
  rw [size, hzero, amount_zero] at hone
  linarith

theorem lt_infinite (h : Within k v x) (hx : magnitude x ≠ infinite) : magnitude x < infinite :=
  Nat.lt_of_le_of_ne h.number hx

theorem mul (hx : Within j v x) (hy : Within k w y) : Within (j + k + 1) (v * w) (x * y) := by
  have hupper : size x * size y ≤ v * w * (1 + loss) ^ (j + k) := by
    calc size x * size y ≤ v * (1 + loss) ^ j * (w * (1 + loss) ^ k) :=
          mul_le_mul hx.size_le hy.size_le (size_nonneg y) ((size_nonneg x).trans hx.size_le)
      _ = v * w * (1 + loss) ^ (j + k) := by
          rw [pow_add]
          ring
  have hone : 1 ≤ size x * size y := one_le_mul_of_one_le_of_one_le hx.one_le hy.one_le
  have hinfinite : (size x = 2 ^ 1024 ∨ size y = 2 ^ 1024) →
      2 ^ 1024 ≤ v * w * (1 + loss) ^ (j + k + 1) := by
    intro h
    calc (2 ^ 1024 : ℚ) ≤ size x * size y := by
          rcases h with h | h
          · exact h ▸ le_mul_of_one_le_right (size_nonneg x) hy.one_le
          · exact h ▸ le_mul_of_one_le_left (size_nonneg y) hx.one_le
      _ ≤ v * w * (1 + loss) ^ (j + k) := hupper
      _ ≤ v * w * (1 + loss) ^ (j + k + 1) := by
          rw [pow_succ, ← mul_assoc]
          exact le_mul_of_one_le_right ((zero_le_one.trans hone).trans hupper)
            one_le_one_add_loss
  by_cases hxi : magnitude x = infinite
  · obtain ⟨hm, hs⟩ := mul_of_infinite hxi hy.number hy.magnitude_ne_zero
    rw [hx.sign, hy.sign] at hs
    exact within_infinite hs hm (hinfinite (.inl (size_of_infinite hxi)))
  · by_cases hyi : magnitude y = infinite
    · obtain ⟨hm, hs⟩ := mul_infinite_of_finite (hx.lt_infinite hxi) hx.magnitude_ne_zero hyi
      rw [hx.sign, hy.sign] at hs
      exact within_infinite hs hm (hinfinite (.inr (size_of_infinite hyi)))
    · have hs := (mul_of_finite (hx.lt_infinite hxi) (hy.lt_infinite hyi)).2
      rw [hx.sign, hy.sign] at hs
      refine (rounds_mul (hx.lt_infinite hxi) (hy.lt_infinite hyi)).within hs hone hupper ?_
      have hlx := hx.le_size.resolve_left hxi
      have hly := hy.le_size.resolve_left hyi
      calc v * w * (1 - loss) ^ (j + k) = v * (1 - loss) ^ j * (w * (1 - loss) ^ k) := by
            rw [pow_add]
            ring
        _ ≤ size x * size y := mul_le_mul hlx hly
            (mul_nonneg hy.pos.le (pow_loss_nonneg k)) (size_nonneg x)

/-- A finite number without an error of its own is added. -/
theorem add (hx : Within k v x) (hy : magnitude y < infinite) (hpos : isNegative y = false) :
    Within (k + 1) (v + size y) (x + y) := by
  have hupper : size x + size y ≤ (v + size y) * (1 + loss) ^ k := by
    rw [add_mul]
    exact add_le_add hx.size_le (le_mul_of_one_le_right (size_nonneg y) (one_le_pow_loss k))
  have hone : 1 ≤ size x + size y := le_add_of_le_of_nonneg hx.one_le (size_nonneg y)
  by_cases hxi : magnitude x = infinite
  · obtain ⟨hm, hs⟩ := infinite_add hxi hy.le hx.sign hpos
    refine within_infinite hs hm ?_
    calc (2 ^ 1024 : ℚ) = size x := (size_of_infinite hxi).symm
      _ ≤ size x + size y := le_add_of_nonneg_right (size_nonneg y)
      _ ≤ (v + size y) * (1 + loss) ^ k := hupper
      _ ≤ (v + size y) * (1 + loss) ^ (k + 1) := by
          rw [pow_succ, ← mul_assoc]
          exact le_mul_of_one_le_right ((zero_le_one.trans hone).trans hupper)
            one_le_one_add_loss
  · have hs := (add_of_finite (hx.lt_infinite hxi) hy hx.sign hpos).2
    refine (rounds_add (hx.lt_infinite hxi) hy hx.sign hpos).within hs hone hupper ?_
    rw [add_mul]
    exact add_le_add (hx.le_size.resolve_left hxi)
      (mul_le_of_le_one_right (size_nonneg y) (pow_loss_le_one k))

end Within

end

/-! ## Thousands of roundings -/

theorem one_sub_le_pow_loss {k : Nat} (h : k ≤ 4096) : 1 - 1 / 2 ^ 41 ≤ (1 - loss) ^ k := by
  have hk : (k : ℚ) ≤ 4096 := by exact_mod_cast h
  have hbernoulli := one_add_mul_le_pow (a := -loss) (by linarith [loss_lt_one]) k
  have hloss : (k : ℚ) * loss ≤ 1 / 2 ^ 41 := by
    calc (k : ℚ) * loss ≤ 4096 * loss := mul_le_mul_of_nonneg_right hk loss_pos.le
      _ = 1 / 2 ^ 41 := by norm_num [loss]
  calc 1 - 1 / 2 ^ 41 ≤ 1 + (k : ℚ) * -loss := by linarith
    _ ≤ (1 + -loss) ^ k := hbernoulli
    _ = (1 - loss) ^ k := by rw [← sub_eq_add_neg]

theorem pow_loss_le {k : Nat} (h : k ≤ 4096) : (1 + loss) ^ k ≤ 1 + 1 / 2 ^ 40 := by
  have hle := one_sub_le_pow_loss h
  have hprod : (1 + loss) ^ k * (1 - loss) ^ k ≤ 1 := by
    rw [← mul_pow]
    exact pow_le_one₀ (by nlinarith [loss_pos, loss_lt_one]) (by nlinarith [loss_pos])
  have hmul : (1 + loss) ^ k * (1 - 1 / 2 ^ 41) ≤ 1 :=
    (mul_le_mul_of_nonneg_left hle (zero_le_one.trans (one_le_pow_loss k))).trans hprod
  norm_num at hmul ⊢
  linarith

/-- The largest double among whole numbers that a few digits tell. -/
theorem whole_thresholds : 10 ^ 308 * (2 ^ 40 + 1) < 2 ^ 1024 * 2 ^ 40 ∧
    2 ^ 1024 * 100 ^ 309 < 999 ^ 309 ∧
    179769313486 * 10 ^ 297 * (2 ^ 40 + 1) + 2 ^ 300 * 2 ^ 40 < 2 ^ 1024 * 2 ^ 40 ∧
    2 ^ 1024 * 2 ^ 41 + 179769313487 * 10 ^ 297 < 179769313487 * 10 ^ 297 * 2 ^ 41 := by
  decide +kernel

theorem mul_one_add_lt {x y z : ℚ} (hy : 0 < y) (h : x * (y + 1) < z * y) :
    x * (1 + 1 / y) < z := by
  have heq : x * (1 + 1 / y) = x * (y + 1) / y := by
    field_simp
  rw [heq]
  exact (div_lt_iff₀ hy).mpr h

theorem lt_mul_one_sub {x y z : ℚ} (hy : 0 < y) (h : z * y + x < x * y) :
    z < x * (1 - 1 / y) := by
  have heq : x * (1 - 1 / y) = (x * y - x) / y := by
    field_simp
  rw [heq]
  exact (lt_div_iff₀ hy).mpr (lt_sub_iff_add_lt.mpr h)

/-- Powers of ten that no rounding makes infinite. -/
theorem ten_pow_lt {n : Nat} (h : n ≤ 308) : (10 ^ n * (1 + 1 / 2 ^ 40) : ℚ) < 2 ^ 1024 := by
  have hcast : (10 ^ 308 * (2 ^ 40 + 1) : ℚ) < 2 ^ 1024 * 2 ^ 40 := by
    exact_mod_cast whole_thresholds.1
  calc (10 ^ n * (1 + 1 / 2 ^ 40) : ℚ) ≤ 10 ^ 308 * (1 + 1 / 2 ^ 40) :=
        mul_le_mul_of_nonneg_right (pow_le_pow_right₀ (by norm_num) h) (by positivity)
    _ < 2 ^ 1024 := mul_one_add_lt (by positivity) hcast

/-- Powers of ten that two roundings for each digit leave infinite. -/
theorem lt_ten_pow {n : Nat} (h : 309 ≤ n) : (2 ^ 1024 : ℚ) < (10 * (1 - loss) ^ 2) ^ n := by
  have hbase : (999 / 100 : ℚ) ≤ 10 * (1 - loss) ^ 2 := by norm_num [loss]
  have hcast : (2 ^ 1024 * 100 ^ 309 : ℚ) < 999 ^ 309 := by exact_mod_cast whole_thresholds.2.1
  calc (2 ^ 1024 : ℚ) < 999 ^ 309 / 100 ^ 309 := (lt_div_iff₀ (by positivity)).mpr hcast
    _ = (999 / 100) ^ 309 := (div_pow _ _ _).symm
    _ ≤ (999 / 100) ^ n := pow_le_pow_right₀ (by norm_num) h
    _ ≤ (10 * (1 - loss) ^ 2) ^ n := pow_le_pow_left₀ (by norm_num) hbase n

/-- The first twelve digits of the largest double tell numbers below it from numbers above. -/
theorem low_digits_lt : (179769313486 * 10 ^ 297 * (1 + 1 / 2 ^ 40) + 2 ^ 300 : ℚ) < 2 ^ 1024 := by
  have hcast : (179769313486 * 10 ^ 297 * (2 ^ 40 + 1) + 2 ^ 300 * 2 ^ 40 : ℚ)
      < 2 ^ 1024 * 2 ^ 40 := by exact_mod_cast whole_thresholds.2.2.1
  refine lt_sub_iff_add_lt.mp (mul_one_add_lt (by positivity) ?_)
  rw [sub_mul]
  exact lt_sub_iff_add_lt.mpr hcast

theorem lt_high_digits : (2 ^ 1024 : ℚ) < 179769313487 * 10 ^ 297 * (1 - 1 / 2 ^ 41) := by
  have hcast : (2 ^ 1024 * 2 ^ 41 + 179769313487 * 10 ^ 297 : ℚ)
      < 179769313487 * 10 ^ 297 * 2 ^ 41 := by exact_mod_cast whole_thresholds.2.2.2
  exact lt_mul_one_sub (by positivity) hcast

theorem units_add_le {m k : Nat} (h : m / 2 ^ 52 ≤ k + 1) :
    units m + 2 ^ k ≤ 2 ^ 53 * 2 ^ k := by
  have hk := Nat.two_pow_pos k
  rw [units_eq]
  split_ifs
  · omega
  · calc (m % 2 ^ 52 + 2 ^ 52) * 2 ^ (m / 2 ^ 52 - 1) + 2 ^ k
        ≤ (2 ^ 53 - 1) * 2 ^ k + 2 ^ k := Nat.add_le_add_right (Nat.mul_le_mul (by omega)
          (Nat.pow_le_pow_right (by decide) (by omega))) _
      _ = 2 ^ 53 * 2 ^ k := by omega

/-- The largest double is one unit of its last place below infinity. -/
theorem size_add_le_of_finite {x : Float} (h : magnitude x < infinite) :
    size x + 2 ^ 971 ≤ 2 ^ 1024 := by
  have hexponent : magnitude x / 2 ^ 52 ≤ 971 + places + 1 := by
    rw [infinite_eq] at h
    rw [places_eq]
    omega
  have hunits : (units (magnitude x) + 2 ^ (971 + places) : ℚ) ≤ 2 ^ 53 * 2 ^ (971 + places) := by
    exact_mod_cast units_add_le hexponent
  rw [pow_add, ← mul_assoc] at hunits
  calc size x + 2 ^ 971 = (units (magnitude x) + 2 ^ 971 * 2 ^ places) / 2 ^ places := by
        rw [size, amount, add_div, mul_div_cancel_right₀ _ (by positivity)]
    _ ≤ 2 ^ 53 * 2 ^ 971 := (div_le_iff₀ (by positivity)).mpr hunits
    _ = 2 ^ 1024 := by rw [← pow_add]

end ColumnCalc.Number
