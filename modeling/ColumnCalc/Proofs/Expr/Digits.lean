import ColumnCalc.Proofs.Expr.Rendering
import ColumnCalc.Proofs.Number.Size

/-!
# Digits and powers of ten in floating point

The value of digits is computed by a product and a sum for each digit, and a power of ten by
squaring; both are within a power of the relative error of a single rounding (`digitsFloat_cases`,
`within_powerOfTen`), unless they overflow. From 309 on a power of ten is infinite
(`magnitude_powerOfTen_eq_iff`), and digits are from a number on that the first twelve of the
largest double tell (`le_of_magnitude_digitsFloat`, `magnitude_digitsFloat_of_le`). The digits of a
fraction are divided by ten once for each of them; a double this small loses at most half a unit
each time, and all divisions together lose no more than two.
-/

namespace ColumnCalc

namespace Literal

open Number

/-! ## Zero, one and ten -/

@[simp]
theorem magnitude_zero : magnitude 0.0 = 0 := rfl

@[simp]
theorem isNegative_zero : isNegative 0.0 = false := rfl

theorem one_eq : (1.0 : Float) = Float.ofNat 1 := rfl

theorem ten_eq : (10.0 : Float) = Float.ofNat 10 := rfl

theorem within_one : Within 0 1 (1.0 : Float) := by
  have hone := within_ofNat (n := 1) (by decide) (by decide)
  rw [one_eq]
  exact_mod_cast hone

theorem within_ten : Within 0 10 (10.0 : Float) := by
  have hten := within_ofNat (n := 10) (by decide) le_rfl
  rw [ten_eq]
  exact_mod_cast hten

@[simp]
theorem size_one : size 1.0 = 1 := by
  obtain ⟨hunits, -, -⟩ := units_ofNat 1 (by decide)
  rw [one_eq, size_of_units hunits, Nat.cast_one]

@[simp]
theorem size_ten : size 10.0 = 10 := by
  obtain ⟨hunits, -, -⟩ := units_ofNat 10 le_rfl
  rw [ten_eq, size_of_units hunits]
  norm_num

theorem one_number : magnitude 1.0 < infinite ∧ magnitude 1.0 ≠ 0 ∧ isNegative 1.0 = false := by
  refine ⟨?_, within_one.magnitude_ne_zero, within_one.sign⟩
  rw [one_eq]
  exact (units_ofNat 1 (by decide)).2.2

theorem ten_number :
    magnitude 10.0 < infinite ∧ magnitude 10.0 ≠ 0 ∧ isNegative 10.0 = false := by
  refine ⟨?_, within_ten.magnitude_ne_zero, within_ten.sign⟩
  rw [ten_eq]
  exact (units_ofNat 10 le_rfl).2.2

/-! ## Digits -/

theorem digitsFloat_eq (ds : List Char) : digitsFloat ds =
    ds.foldl (fun acc d => acc * 10.0 + Float.ofNat (d.toNat - '0'.toNat)) 0.0 := rfl

theorem digitsValue_cons (c : Char) (ds : List Char) : digitsValue (c :: ds)
    = (c.toNat - '0'.toNat) * 10 ^ ds.length + digitsValue ds := by
  have happend := digitsValue_append [c] ds
  rw [List.singleton_append] at happend
  rw [happend]
  simp [digitsValue, Nat.ofDigitChars]

theorem digit_le {c : Char} (h : c.isDigit = true) : c.toNat - '0'.toNat ≤ 9 := by
  simp [Char.isDigit, UInt32.le_iff_toNat_le] at h
  have hnine : c.toNat ≤ 57 := h.2
  have hzero : '0'.toNat = 48 := rfl
  omega

section
variable {x : Float} {v : ℚ} {k : Nat}

/-- One digit more, with a product and a sum. -/
theorem within_digit (h : Within k v x) {n : Nat} (hn : n ≤ 9) :
    Within (k + 2) (v * 10 + n) (x * 10.0 + Float.ofNat n) := by
  obtain ⟨hunits, hsign, hfinite⟩ := units_ofNat n (by omega)
  have hsum := (h.mul within_ten).add hfinite hsign
  rwa [size_of_units hunits] at hsum

theorem within_foldl {ds : List Char} (hds : ∀ c ∈ ds, c.isDigit = true) (h : Within k v x) :
    Within (k + 2 * ds.length) (v * 10 ^ ds.length + digitsValue ds)
      (ds.foldl (fun acc d => acc * 10.0 + Float.ofNat (d.toNat - '0'.toNat)) x) := by
  induction ds generalizing x v k with
  | nil => simpa [digitsValue] using h
  | cons c ds ih =>
    have hc := digit_le (hds c (.head _))
    have hstep := ih (fun d hd => hds d (.tail _ hd)) (within_digit h hc)
    have hcount : k + 2 + 2 * ds.length = k + 2 * (c :: ds).length := by
      rw [List.length_cons]
      omega
    have hvalue : (v * 10 + (c.toNat - '0'.toNat : Nat)) * 10 ^ ds.length + digitsValue ds
        = v * 10 ^ (c :: ds).length + digitsValue (c :: ds) := by
      rw [digitsValue_cons, List.length_cons]
      push_cast
      ring
    rw [hcount, hvalue] at hstep
    exact hstep

end

theorem zero_digit : ∀ n ≤ 9, (0.0 : Float) * 10.0 + Float.ofNat n = Float.ofNat n := by
  decide +kernel

theorem ofNat_zero : Float.ofNat 0 = 0.0 := rfl

/--
The value of digits, up to two roundings for each digit behind the first that is not zero.
-/
theorem digitsFloat_cases {ds : List Char} (hds : ∀ c ∈ ds, c.isDigit = true) :
    (digitsFloat ds = 0.0 ∧ digitsValue ds = 0) ∨
      ∃ n, Within (2 * n) (digitsValue ds) (digitsFloat ds) ∧ 10 ^ n ≤ digitsValue ds := by
  induction ds with
  | nil => exact .inl ⟨rfl, rfl⟩
  | cons c ds ih =>
    have htail : ∀ d ∈ ds, d.isDigit = true := fun d hd => hds d (.tail _ hd)
    have hc := digit_le (hds c (.head _))
    by_cases hzero : c.toNat - '0'.toNat = 0
    · have hskip : digitsFloat (c :: ds) = digitsFloat ds := by
        rw [digitsFloat_eq, List.foldl_cons, zero_digit _ hc, hzero, ofNat_zero, digitsFloat_eq]
      rw [hskip, digitsValue_cons, hzero, Nat.zero_mul, Nat.zero_add]
      exact ih htail
    · have hpos : 0 < c.toNat - '0'.toNat := Nat.pos_of_ne_zero hzero
      have hfirst := within_ofNat hpos (hc.trans (by decide))
      have hall := within_foldl htail hfirst
      refine .inr ⟨ds.length, ?_, ?_⟩
      · rw [digitsFloat_eq, List.foldl_cons, zero_digit _ hc, digitsValue_cons]
        rw [Nat.zero_add] at hall
        exact_mod_cast hall
      · rw [digitsValue_cons]
        exact (Nat.le_mul_of_pos_left _ hpos).trans (Nat.le_add_right _ _)

/-! ## Powers of ten -/

theorem bySquaring_eq (result base : Float) (n : Nat) : bySquaring result base n =
    if n = 0 then result
    else bySquaring (if n % 2 = 1 then result * base else result) (base * base) (n / 2) := by
  rw [bySquaring]

/-- Squaring doubles the roundings of the base, so that the power has one for each factor. -/
theorem within_bySquaring {result base : Float} {v w : ℚ} {j k n : Nat} (hr : Within j v result)
    (hb : Within k w base) : Within (j + (k + 1) * n) (v * w ^ n) (bySquaring result base n) := by
  induction n using Nat.strong_induction_on generalizing result base v w j k with
  | _ n ih =>
    rw [bySquaring_eq]
    split
    · rename_i hzero
      subst hzero
      rw [Nat.mul_zero, Nat.add_zero, pow_zero, mul_one]
      exact hr
    · rename_i hne
      have hhalf : n / 2 < n := Nat.div_lt_self (Nat.pos_of_ne_zero hne) (by decide)
      have hn : n = 2 * (n / 2) + n % 2 := (Nat.div_add_mod n 2).symm
      obtain ⟨q, hq⟩ : ∃ q, q = n / 2 := ⟨_, rfl⟩
      rw [← hq] at hhalf hn ⊢
      split
      · rename_i hodd
        rw [hodd] at hn
        have hall := ih q hhalf (hr.mul hb) (hb.mul hb)
        have hcount : j + k + 1 + (k + k + 1 + 1) * q = j + (k + 1) * n := by
          rw [hn]
          ring
        have hvalue : v * w * (w * w) ^ q = v * w ^ n := by
          rw [hn]
          ring
        rwa [hcount, hvalue] at hall
      · rename_i heven
        have hmod : n % 2 = 0 := by omega
        rw [hmod, Nat.add_zero] at hn
        have hall := ih q hhalf hr (hb.mul hb)
        have hcount : j + (k + k + 1 + 1) * q = j + (k + 1) * n := by
          rw [hn]
          ring
        have hvalue : v * (w * w) ^ q = v * w ^ n := by
          rw [hn]
          ring
        rwa [hcount, hvalue] at hall

theorem within_powerOfTen (n : Nat) :
    Within (min n (2 ^ 31 - 1)) (10 ^ min n (2 ^ 31 - 1)) (powerOfTen false n) := by
  have hpower := within_bySquaring (n := min n (2 ^ 31 - 1)) within_one within_ten
  rw [Nat.zero_add, Nat.zero_add, Nat.one_mul, one_mul] at hpower
  exact hpower

theorem powerOfTen_true (n : Nat) : powerOfTen true n = 1.0 / powerOfTen false n := rfl

section
variable {n : Nat}

/-- The powers of ten that are finite. -/
theorem magnitude_powerOfTen_eq_iff :
    magnitude (powerOfTen false n) = infinite ↔ 309 ≤ n := by
  have hwithin := within_powerOfTen n
  constructor
  · intro hinfinite
    by_contra hsmall
    have hmin : min n (2 ^ 31 - 1) = n := Nat.min_eq_left (by omega)
    rw [hmin] at hwithin
    have hlt : size (powerOfTen false n) < 2 ^ 1024 := by
      calc size (powerOfTen false n) ≤ 10 ^ n * (1 + loss) ^ n := hwithin.size_le
        _ ≤ 10 ^ n * (1 + 1 / 2 ^ 40) :=
          mul_le_mul_of_nonneg_left (pow_loss_le (by omega)) (by positivity)
        _ < 2 ^ 1024 := ten_pow_lt (by omega)
    exact ((size_lt_iff hwithin.number).mp hlt).ne hinfinite
  · intro hlarge
    by_contra hfinite
    have hm : 309 ≤ min n (2 ^ 31 - 1) := Nat.le_min.mpr ⟨hlarge, by decide⟩
    obtain ⟨m, hm'⟩ : ∃ m, m = min n (2 ^ 31 - 1) := ⟨_, rfl⟩
    rw [← hm'] at hm hwithin
    have hlt : (2 ^ 1024 : ℚ) < size (powerOfTen false n) := by
      calc (2 ^ 1024 : ℚ) < (10 * (1 - loss) ^ 2) ^ m := lt_ten_pow hm
        _ = 10 ^ m * (1 - loss) ^ (2 * m) := by rw [mul_pow, ← pow_mul]
        _ ≤ 10 ^ m * (1 - loss) ^ m := mul_le_mul_of_nonneg_left
          (pow_le_pow_of_le_one one_sub_loss_nonneg (sub_le_self _ loss_pos.le) (by omega))
          (by positivity)
        _ ≤ size (powerOfTen false n) := hwithin.le_size.resolve_left hfinite
    exact lt_asymm hlt ((size_lt_iff hwithin.number).mpr (hwithin.lt_infinite hfinite))

/-- The size of a finite power of ten. -/
theorem size_powerOfTen_le (h : n ≤ 308) :
    size (powerOfTen false n) ≤ 10 ^ n * (1 + loss) ^ n := by
  have hwithin := within_powerOfTen n
  rw [Nat.min_eq_left (by omega : n ≤ 2 ^ 31 - 1)] at hwithin
  exact hwithin.size_le

end

/-! ## Overflow of digits -/

theorem mul_ten_pow_le {a d k n : Nat} (ha : a ≤ 10 ^ d) (h : d + k ≤ n) :
    a * 10 ^ k ≤ 10 ^ n := by
  calc a * 10 ^ k ≤ 10 ^ d * 10 ^ k := Nat.mul_le_mul_right _ ha
    _ = 10 ^ (d + k) := (pow_add _ _ _).symm
    _ ≤ 10 ^ n := Nat.pow_le_pow_right (by decide) h

theorem high_digits_le {n : Nat} (h : 309 ≤ n) : 179769313487 * 10 ^ 297 ≤ 10 ^ n :=
  mul_ten_pow_le (a := 179769313487) (d := 12) (k := 297) (n := n) (by decide) h

/-- Digits whose value overflows are those of a number that hardly is below the largest double. -/
theorem le_of_magnitude_digitsFloat {ds : List Char} (hds : ∀ c ∈ ds, c.isDigit = true)
    (h : magnitude (digitsFloat ds) = infinite) : 179769313486 * 10 ^ 297 ≤ digitsValue ds := by
  rcases digitsFloat_cases hds with ⟨hzero, -⟩ | ⟨n, hwithin, hn⟩
  · rw [hzero, magnitude_zero] at h
    exact absurd h (by decide)
  · rcases Nat.lt_or_ge n 309 with hsmall | hlarge
    · by_contra hlt
      have hvalue : (digitsValue ds : ℚ) ≤ 179769313486 * 10 ^ 297 := by
        exact_mod_cast (Nat.not_le.mp hlt).le
      have hsize : size (digitsFloat ds) < 2 ^ 1024 := by
        calc size (digitsFloat ds) ≤ digitsValue ds * (1 + loss) ^ (2 * n) := hwithin.size_le
          _ ≤ 179769313486 * 10 ^ 297 * (1 + 1 / 2 ^ 40) := mul_le_mul hvalue
            (pow_loss_le (by omega)) (zero_le_one.trans (one_le_pow_loss _)) (by positivity)
          _ ≤ 179769313486 * 10 ^ 297 * (1 + 1 / 2 ^ 40) + 2 ^ 300 :=
            le_add_of_nonneg_right (by positivity)
          _ < 2 ^ 1024 := low_digits_lt
      exact ((size_lt_iff hwithin.number).mp hsize).ne h
    · calc 179769313486 * 10 ^ 297 ≤ 179769313487 * 10 ^ 297 :=
            Nat.mul_le_mul_right _ (by decide)
        _ ≤ 10 ^ n := high_digits_le hlarge
        _ ≤ digitsValue ds := hn

theorem magnitude_digitsFloat_of_le {ds : List Char} (hds : ∀ c ∈ ds, c.isDigit = true)
    (h : 179769313487 * 10 ^ 297 ≤ digitsValue ds) : magnitude (digitsFloat ds) = infinite := by
  have hvalue : (179769313487 * 10 ^ 297 : ℚ) ≤ digitsValue ds := by exact_mod_cast h
  rcases digitsFloat_cases hds with ⟨-, hzero⟩ | ⟨n, hwithin, hn⟩
  · rw [hzero, Nat.cast_zero] at hvalue
    exact absurd hvalue (not_le.mpr (by positivity))
  · by_contra hfinite
    have hn' : (10 ^ n : ℚ) ≤ digitsValue ds := by exact_mod_cast hn
    have hsize := hwithin.le_size.resolve_left hfinite
    have hlt : (2 ^ 1024 : ℚ) < size (digitsFloat ds) := by
      rcases Nat.lt_or_ge n 309 with hsmall | hlarge
      · calc (2 ^ 1024 : ℚ) < 179769313487 * 10 ^ 297 * (1 - 1 / 2 ^ 41) := lt_high_digits
          _ ≤ digitsValue ds * (1 - loss) ^ (2 * n) := mul_le_mul hvalue
            (one_sub_le_pow_loss (by omega)) (by norm_num) (Nat.cast_nonneg _)
          _ ≤ size (digitsFloat ds) := hsize
      · calc (2 ^ 1024 : ℚ) < (10 * (1 - loss) ^ 2) ^ n := lt_ten_pow hlarge
          _ = 10 ^ n * (1 - loss) ^ (2 * n) := by rw [mul_pow, ← pow_mul]
          _ ≤ digitsValue ds * (1 - loss) ^ (2 * n) :=
            mul_le_mul_of_nonneg_right hn' (pow_loss_nonneg _)
          _ ≤ size (digitsFloat ds) := hsize
    exact lt_asymm hlt ((size_lt_iff hwithin.number).mpr (hwithin.lt_infinite hfinite))

/-- A finite value of digits. -/
theorem size_digitsFloat_le {ds : List Char} (hds : ∀ c ∈ ds, c.isDigit = true)
    (h : magnitude (digitsFloat ds) ≠ infinite) :
    size (digitsFloat ds) ≤ digitsValue ds * (1 + loss) ^ 616 := by
  rcases digitsFloat_cases hds with ⟨hzero, -⟩ | ⟨n, hwithin, hn⟩
  · rw [hzero, size, magnitude_zero, amount_zero]
    exact mul_nonneg (Nat.cast_nonneg _) (zero_le_one.trans (one_le_pow_loss _))
  · have hsmall : n ≤ 308 := by
      by_contra hlarge
      exact h (magnitude_digitsFloat_of_le hds ((high_digits_le (by omega)).trans hn))
    calc size (digitsFloat ds) ≤ digitsValue ds * (1 + loss) ^ (2 * n) := hwithin.size_le
      _ ≤ digitsValue ds * (1 + loss) ^ 616 := mul_le_mul_of_nonneg_left
        (pow_loss_mono (by omega)) (Nat.cast_nonneg _)

theorem digitsFloat_number {ds : List Char} (hds : ∀ c ∈ ds, c.isDigit = true) :
    isNegative (digitsFloat ds) = false ∧ magnitude (digitsFloat ds) ≤ infinite := by
  rcases digitsFloat_cases hds with ⟨hzero, -⟩ | ⟨n, hwithin, -⟩
  · rw [hzero]
    exact ⟨isNegative_zero, magnitude_zero.trans_le (Nat.zero_le _)⟩
  · exact ⟨hwithin.sign, hwithin.number⟩

/-! ## Fractions -/

theorem fractionFloat_eq (ds : List Char) :
    fractionFloat ds = (fun x => x / 10.0)^[ds.length] (digitsFloat ds) := by
  rw [fractionFloat, List.foldl_const]

section
variable {x : Float}

theorem div_ten (hx : magnitude x < infinite) (hs : isNegative x = false) :
    isNegative (x / 10.0) = false ∧ magnitude (x / 10.0) < infinite ∧
      size (x / 10.0) ≤ size x * ((1 + loss) / 10) + halfUnit := by
  have hten := ten_number
  have hsign := (div_of_finite hx hten.1 hten.2.1).2
  have hrounds := rounds_div hx hten.1 hten.2.1
  rw [hs, hten.2.2] at hsign
  rw [size_ten] at hrounds
  refine ⟨hsign, ?_, ?_⟩
  · exact (hrounds.mono (rounds_self hx) (by linarith [size_nonneg x])).trans_lt hx
  · calc size (x / 10.0) ≤ size x / 10 * (1 + loss) + halfUnit := hrounds.size_le
      _ = size x * ((1 + loss) / 10) + halfUnit := by ring

/-- Each division loses at most half a unit where it is not exact up to its own rounding. -/
theorem iterate_div_ten (hx : magnitude x < infinite) (hs : isNegative x = false) (n : Nat) :
    isNegative ((fun x => x / 10.0)^[n] x) = false ∧
      magnitude ((fun x => x / 10.0)^[n] x) < infinite ∧
      size ((fun x => x / 10.0)^[n] x) ≤ size x * ((1 + loss) / 10) ^ n + 2 * halfUnit := by
  induction n with
  | zero =>
    refine ⟨hs, hx, ?_⟩
    rw [pow_zero, mul_one]
    exact le_add_of_nonneg_right (by linarith [halfUnit_pos])
  | succ n ih =>
    obtain ⟨hsign, hfinite, hsize⟩ := ih
    obtain ⟨hsign', hfinite', hsize'⟩ := div_ten hfinite hsign
    rw [Function.iterate_succ_apply']
    refine ⟨hsign', hfinite', hsize'.trans ?_⟩
    have hratio : 0 ≤ (1 + loss) / 10 ∧ (1 + loss) / 10 ≤ 1 / 2 := by
      constructor <;> linarith [loss_pos, loss_lt_one]
    have hhalf : 2 * halfUnit * ((1 + loss) / 10) ≤ 2 * halfUnit * (1 / 2) :=
      mul_le_mul_of_nonneg_left hratio.2 (by linarith [halfUnit_pos])
    calc size ((fun x => x / 10.0)^[n] x) * ((1 + loss) / 10) + halfUnit
        ≤ (size x * ((1 + loss) / 10) ^ n + 2 * halfUnit) * ((1 + loss) / 10) + halfUnit :=
          add_le_add_left (mul_le_mul_of_nonneg_right hsize hratio.1) _
      _ = size x * ((1 + loss) / 10) ^ (n + 1) + 2 * halfUnit * ((1 + loss) / 10) + halfUnit := by
          rw [pow_succ]
          ring
      _ ≤ size x * ((1 + loss) / 10) ^ (n + 1) + 2 * halfUnit := by linarith

theorem iterate_div_ten_of_infinite (hx : magnitude x = infinite) (hs : isNegative x = false)
    (n : Nat) : isNegative ((fun x => x / 10.0)^[n] x) = false ∧
      magnitude ((fun x => x / 10.0)^[n] x) = infinite := by
  induction n with
  | zero => exact ⟨hs, hx⟩
  | succ n ih =>
    obtain ⟨hm, hsign⟩ := infinite_div ih.2 ten_number.1
    rw [ih.1, ten_number.2.2] at hsign
    rw [Function.iterate_succ_apply']
    exact ⟨hsign, hm⟩

end

/-- More than is left of a finite number after a thousand divisions. -/
def trifle : ℚ :=
  1 / 2 ^ 976

theorem trifle_pos : 0 < trifle := by
  unfold trifle
  positivity

theorem trifle_le : trifle ≤ 1 / 4 := by
  have hle : (2 ^ 2 : ℚ) ≤ 2 ^ 976 := pow_le_pow_right₀ one_le_two (by decide)
  calc trifle ≤ 1 / 2 ^ 2 := one_div_le_one_div_of_le (by positivity) hle
    _ = 1 / 4 := by norm_num

theorem two_halfUnit_le : 2 * halfUnit ≤ trifle := by
  have hle : (2 ^ 976 : ℚ) ≤ 2 ^ places := pow_le_pow_right₀ one_le_two (by rw [places_eq]; decide)
  calc 2 * halfUnit = 1 / 2 ^ places := by
        rw [halfUnit]
        ring
    _ ≤ trifle := one_div_le_one_div_of_le (by positivity) hle

/-- So many tenths leave hardly anything of a number. -/
theorem tenths_le_one_div {v : ℚ} {a b m n : Nat} (hv : v ≤ 2 ^ a) (hm : 2 * m = a + b)
    (hn : m ≤ n) : v * ((1 + loss) / 10) ^ n ≤ 1 / 2 ^ b := by
  have hpos : 0 ≤ (1 + loss) / 10 := div_nonneg one_add_loss_nonneg (by norm_num)
  have hratio : (1 + loss) / 10 ≤ 1 / 2 ^ 2 := by linarith [loss_lt_one]
  calc v * ((1 + loss) / 10) ^ n ≤ 2 ^ a * ((1 + loss) / 10) ^ n :=
        mul_le_mul_of_nonneg_right hv (pow_nonneg hpos n)
    _ ≤ 2 ^ a * (1 / 2 ^ 2) ^ n :=
        mul_le_mul_of_nonneg_left (pow_le_pow_left₀ hpos hratio n) (by positivity)
    _ ≤ 2 ^ a * (1 / 2 ^ 2) ^ m := mul_le_mul_of_nonneg_left
        (pow_le_pow_of_le_one (by positivity) (by norm_num) hn) (by positivity)
    _ = 2 ^ a / 2 ^ (a + b) := by
        rw [one_div_pow, ← pow_mul, hm, mul_one_div]
    _ = 1 / 2 ^ b := by
        rw [pow_add, div_mul_eq_div_div, div_self (by positivity)]

theorem tenths_le {v : ℚ} (hv : v ≤ 2 ^ 1024) {n : Nat} (hn : 1000 ≤ n) :
    v * ((1 + loss) / 10) ^ n ≤ trifle :=
  tenths_le_one_div hv rfl hn

theorem mul_div_ten_pow (v r : ℚ) (k n : Nat) :
    v * r ^ k * (r / 10) ^ n = v / 10 ^ n * r ^ (k + n) := by
  rw [div_pow, pow_add]
  ring

/-- A finite fraction. -/
theorem fractionFloat_of_finite {ds : List Char} (hds : ∀ c ∈ ds, c.isDigit = true)
    (h : magnitude (digitsFloat ds) ≠ infinite) :
    isNegative (fractionFloat ds) = false ∧ magnitude (fractionFloat ds) < infinite ∧
      size (fractionFloat ds)
        ≤ digitsValue ds / 10 ^ ds.length * (1 + loss) ^ 1616 + 2 * trifle := by
  obtain ⟨hsign, hnumber⟩ := digitsFloat_number hds
  have hfinite : magnitude (digitsFloat ds) < infinite := Nat.lt_of_le_of_ne hnumber h
  obtain ⟨hsign', hfinite', hsize⟩ := iterate_div_ten hfinite hsign ds.length
  have hhalf := two_halfUnit_le
  rw [fractionFloat_eq]
  refine ⟨hsign', hfinite', hsize.trans ?_⟩
  rcases Nat.le_total ds.length 1000 with hshort | hlong
  · have hrelative : size (digitsFloat ds) * ((1 + loss) / 10) ^ ds.length
        ≤ digitsValue ds / 10 ^ ds.length * (1 + loss) ^ 1616 := by
      calc size (digitsFloat ds) * ((1 + loss) / 10) ^ ds.length
          ≤ digitsValue ds * (1 + loss) ^ 616 * ((1 + loss) / 10) ^ ds.length :=
            mul_le_mul_of_nonneg_right (size_digitsFloat_le hds h)
              (pow_nonneg (div_nonneg one_add_loss_nonneg (by norm_num)) _)
        _ = digitsValue ds / 10 ^ ds.length * (1 + loss) ^ (616 + ds.length) :=
            mul_div_ten_pow _ _ _ _
        _ ≤ digitsValue ds / 10 ^ ds.length * (1 + loss) ^ 1616 := mul_le_mul_of_nonneg_left
            (pow_loss_mono (by omega)) (by positivity)
    exact add_le_add hrelative (hhalf.trans (le_mul_of_one_le_left trifle_pos.le one_le_two))
  · have hnothing := tenths_le ((size_lt_iff hnumber).mpr hfinite).le hlong
    have hrelative : 0 ≤ digitsValue ds / 10 ^ ds.length * (1 + loss) ^ 1616 :=
      mul_nonneg (by positivity) (zero_le_one.trans (one_le_pow_loss _))
    rw [two_mul trifle]
    exact (add_le_add hnothing hhalf).trans (le_add_of_nonneg_left hrelative)

theorem fractionFloat_of_infinite {ds : List Char} (hds : ∀ c ∈ ds, c.isDigit = true)
    (h : magnitude (digitsFloat ds) = infinite) :
    isNegative (fractionFloat ds) = false ∧ magnitude (fractionFloat ds) = infinite := by
  rw [fractionFloat_eq]
  exact iterate_div_ten_of_infinite h (digitsFloat_number hds).1 ds.length

theorem digitsValue_lt {ds : List Char} (hds : ∀ c ∈ ds, c.isDigit = true) :
    digitsValue ds < 10 ^ ds.length := by
  induction ds with
  | nil => decide
  | cons c ds ih =>
    have hc := digit_le (hds c (.head _))
    have htail := ih fun d hd => hds d (.tail _ hd)
    rw [digitsValue_cons, List.length_cons]
    calc (c.toNat - '0'.toNat) * 10 ^ ds.length + digitsValue ds
        < 9 * 10 ^ ds.length + 10 ^ ds.length :=
          Nat.add_lt_add_of_le_of_lt (Nat.mul_le_mul_right _ hc) htail
      _ = 10 ^ (ds.length + 1) := by
          rw [pow_succ]
          ring

theorem size_fractionFloat_le_two {ds : List Char} (hds : ∀ c ∈ ds, c.isDigit = true)
    (h : magnitude (digitsFloat ds) ≠ infinite) : size (fractionFloat ds) ≤ 2 := by
  have hlt : (digitsValue ds : ℚ) / 10 ^ ds.length ≤ 1 :=
    (div_le_one (by positivity)).mpr (by exact_mod_cast (digitsValue_lt hds).le)
  have htrifle : 2 * trifle ≤ 1 / 2 := by linarith [trifle_le]
  have hpow : (1 + loss) ^ 1616 ≤ 3 / 2 := (pow_loss_le (by decide)).trans (by norm_num)
  calc size (fractionFloat ds)
      ≤ digitsValue ds / 10 ^ ds.length * (1 + loss) ^ 1616 + 2 * trifle :=
        (fractionFloat_of_finite hds h).2.2
    _ ≤ 1 * (3 / 2) + 1 / 2 := add_le_add
        (mul_le_mul hlt hpow (zero_le_one.trans (one_le_pow_loss _)) zero_le_one) htrifle
    _ = 2 := by norm_num

end Literal

end ColumnCalc
