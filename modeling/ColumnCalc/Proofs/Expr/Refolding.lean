import ColumnCalc.Proofs.Expr.Assembly
import ColumnCalc.Proofs.Number.Brevity

/-!
# What comes back of a printed number

The text of a finite number is a literal of a few digits that denotes exactly the shortest decimal
of the number. Such a literal has a mantissa that is neither zero nor infinite; it comes back as
zero only if the factor of its power is zero, and that is so from -309 on. A literal that comes back
as infinity denotes a number that hardly is below the largest double.
-/

namespace ColumnCalc

open Grammar Number

namespace Literal

section
variable {l : Literal}

/-! ## Exact values -/

theorem exactMantissa_eq (l : Literal) :
    l.exactMantissa = digitsValue (l.whole ++ l.fraction) / 10 ^ l.fraction.length := by
  unfold exactMantissa
  rw [digitsValue_append]
  push_cast
  field_simp

theorem exact_eq_of_power {e : Int} (hnegative : l.powerNegative = decide (e < 0))
    (hpower : digitsValue l.power = e.natAbs) : l.exact = l.exactMantissa * 10 ^ e := by
  unfold exact
  rw [hnegative, hpower]
  by_cases he : e < 0
  · have hexp : e = -(e.natAbs : Int) := by omega
    rw [decide_eq_true he, if_pos rfl]
    conv_rhs => rw [hexp, zpow_neg, zpow_natCast, ← one_div]
  · have hexp : e = (e.natAbs : Int) := by omega
    rw [decide_eq_false he, if_neg Bool.false_ne_true]
    conv_rhs => rw [hexp, zpow_natCast]

theorem le_exactMantissa (hf : l.fraction.length ≤ 25) (h : l.exactMantissa ≠ 0) :
    10 ^ (-308 : Int) ≤ l.exactMantissa := by
  rw [exactMantissa_eq] at h ⊢
  have hne : digitsValue (l.whole ++ l.fraction) ≠ 0 := fun hzero => h (by simp [hzero])
  have hone : (1 : ℚ) ≤ digitsValue (l.whole ++ l.fraction) := by
    exact_mod_cast Nat.one_le_iff_ne_zero.mpr hne
  calc (10 : ℚ) ^ (-308 : Int) ≤ 10 ^ (-(l.fraction.length : Int)) :=
        zpow_le_zpow_right₀ (by norm_num) (by omega)
    _ = 1 / 10 ^ l.fraction.length := by rw [zpow_neg, zpow_natCast, one_div]
    _ ≤ digitsValue (l.whole ++ l.fraction) / 10 ^ l.fraction.length :=
        div_le_div_of_nonneg_right hone (by positivity)

/-! ## Short literals -/

theorem not_overflows_of_short (hwhole : ∀ c ∈ l.whole, c.isDigit = true)
    (hfraction : ∀ c ∈ l.fraction, c.isDigit = true) (hw : l.whole.length ≤ 25)
    (hf : l.fraction.length ≤ 25) : ¬ l.Overflows := by
  have hsmall : ∀ ds : List Char, (∀ c ∈ ds, c.isDigit = true) → ds.length ≤ 25 →
      magnitude (digitsFloat ds) ≠ infinite := by
    intro ds hds hlength hinfinite
    have hlt : ∀ k, ds.length ≤ k → digitsValue ds < 179769313486 * 10 ^ k := fun k hk =>
      calc digitsValue ds < 10 ^ ds.length := digitsValue_lt hds
        _ ≤ 10 ^ k := Nat.pow_le_pow_right (by decide) hk
        _ ≤ 179769313486 * 10 ^ k := Nat.le_mul_of_pos_left _ (by decide)
    exact absurd (le_of_magnitude_digitsFloat hds hinfinite)
      (Nat.not_le.mpr (hlt 297 (hlength.trans (by decide))))
  rw [Overflows, isInf_iff, isInf_iff, not_or]
  exact ⟨hsmall _ hwhole hw, hsmall _ hfraction hf⟩

theorem one_le_size_digitsFloat {ds : List Char} (hds : ∀ c ∈ ds, c.isDigit = true)
    (h : digitsValue ds ≠ 0) : 1 ≤ size (digitsFloat ds) := by
  rcases digitsFloat_cases hds with ⟨-, hzero⟩ | ⟨n, hwithin, -⟩
  · exact absurd hzero h
  · exact hwithin.one_le

/-- A few divisions by ten lose no number from one upwards. -/
theorem le_iterate_div_ten {x : Float} (hx : magnitude x < infinite) (hs : isNegative x = false)
    (hone : 1 ≤ size x) {n : Nat} (hn : n ≤ 200) :
    1 / 16 ^ n ≤ size ((fun x => x / 10.0)^[n] x) := by
  induction n with
  | zero =>
    rw [pow_zero, div_one]
    exact hone
  | succ n ih =>
    obtain ⟨hsign, hfinite, -⟩ := iterate_div_ten hx hs n
    have hle := ih (by omega)
    rw [Function.iterate_succ_apply']
    generalize (fun x => x / 10.0)^[n] x = y at hsign hfinite hle ⊢
    have hrounds := rounds_div hfinite ten_number.1 ten_number.2.1
    have hquotient := div_ten hfinite hsign
    rw [size_ten] at hrounds
    have hten : 1 / 16 ^ n / 10 ≤ size y / 10 := by linarith
    have hnormal : leastNormal ≤ size y / 10 := by
      calc leastNormal ≤ 1 / 16 ^ (n + 1) := by
            have hpow : (16 : ℚ) ^ (n + 1) = 2 ^ (4 * (n + 1)) := by
              rw [pow_mul]
              norm_num
            rw [leastNormal, hpow]
            exact one_div_le_one_div_of_le (by positivity)
              (pow_le_pow_right₀ one_le_two (by omega))
        _ = 1 / 16 ^ n / 16 := by rw [pow_succ, div_mul_eq_div_div]
        _ ≤ 1 / 16 ^ n / 10 := div_le_div_of_nonneg_left (by positivity) (by norm_num) (by norm_num)
        _ ≤ size y / 10 := hten
    calc (1 / 16 ^ (n + 1) : ℚ) = 1 / 16 ^ n / 10 * (10 / 16) := by
          rw [pow_succ, div_mul_eq_div_div]
          ring
      _ ≤ 1 / 16 ^ n / 10 * (1 - loss) :=
          mul_le_mul_of_nonneg_left (by norm_num [loss]) (by positivity)
      _ ≤ size y / 10 * (1 - loss) := mul_le_mul_of_nonneg_right hten one_sub_loss_nonneg
      _ ≤ size (y / 10.0) := hrounds.le_size_of_normal hquotient.2.1.ne hnormal

/-- The sum of two parts is no less than either. -/
theorem size_parts_le_mantissa (hwhole : ∀ c ∈ l.whole, c.isDigit = true)
    (hfraction : ∀ c ∈ l.fraction, c.isDigit = true) (h : ¬ l.Overflows) :
    size (digitsFloat l.whole) ≤ size l.mantissa ∧
      size (fractionFloat l.fraction) ≤ size l.mantissa := by
  rw [Overflows, isInf_iff, isInf_iff, not_or] at h
  obtain ⟨hsign, hnumber⟩ := digitsFloat_number hwhole
  obtain ⟨hsign', hfinite', -⟩ := fractionFloat_of_finite hfraction h.2
  have hfinite := Nat.lt_of_le_of_ne hnumber h.1
  have hrounds := rounds_add hfinite hfinite' hsign hsign'
  exact ⟨(rounds_self hfinite).size_mono hrounds (le_add_of_nonneg_right (size_nonneg _)),
    (rounds_self hfinite').size_mono hrounds (le_add_of_nonneg_left (size_nonneg _))⟩

theorem mantissa_ne_zero (hwhole : ∀ c ∈ l.whole, c.isDigit = true)
    (hfraction : ∀ c ∈ l.fraction, c.isDigit = true) (h : ¬ l.Overflows)
    (hf : l.fraction.length ≤ 25) (hexact : l.exactMantissa ≠ 0) : magnitude l.mantissa ≠ 0 := by
  obtain ⟨hw, hle⟩ := size_parts_le_mantissa hwhole hfraction h
  intro hzero
  have hsize : size l.mantissa = 0 := by
    rw [size, hzero, amount_zero]
  rw [hsize] at hw hle
  by_cases hwz : digitsValue l.whole = 0
  · have hfz : digitsValue l.fraction ≠ 0 := by
      intro hfz
      rw [exactMantissa, hwz, hfz, Nat.cast_zero, zero_div, add_zero] at hexact
      exact hexact rfl
    rw [Overflows, isInf_iff, isInf_iff, not_or] at h
    obtain ⟨hsign, hnumber⟩ := digitsFloat_number hfraction
    have hlower := le_iterate_div_ten (Nat.lt_of_le_of_ne hnumber h.2) hsign
      (one_le_size_digitsFloat hfraction hfz) (hf.trans (by decide))
    rw [← fractionFloat_eq] at hlower
    have hpos : (0 : ℚ) < 1 / 16 ^ l.fraction.length := by positivity
    linarith
  · linarith [one_le_size_digitsFloat hwhole hwz]

theorem one_le_size_factor (h : l.powerNegative = false) : 1 ≤ size l.factor := by
  rw [factor, h]
  exact (within_powerOfTen _).one_le

/-- A product with a factor from one upwards, or with a mantissa from one upwards, is not lost. -/
theorem value_ne_zero (hwhole : ∀ c ∈ l.whole, c.isDigit = true)
    (hfraction : ∀ c ∈ l.fraction, c.isDigit = true) (h : ¬ l.Overflows)
    (hm : magnitude l.mantissa ≠ 0) (hfactor : magnitude l.factor ≠ 0)
    (hone : 1 ≤ size l.mantissa ∨ 1 ≤ size l.factor) (hfinite : magnitude l.factor ≠ infinite) :
    magnitude l.value ≠ 0 := by
  obtain ⟨hrounds, -⟩ := value_of_finite hwhole hfraction h hfinite
  intro hzero
  rcases hone with hone | hone
  · have hself := rounds_self (Nat.lt_of_le_of_ne l.factor_le_infinite hfinite)
    have hle := hself.mono hrounds (le_mul_of_one_le_left (size_nonneg _) hone)
    omega
  · have hself := rounds_self (mantissa_of_not_overflows hwhole hfraction h).2.1
    have hle := hself.mono hrounds (le_mul_of_one_le_right (size_nonneg _) hone)
    omega

theorem value_of_factor_zero (hwhole : ∀ c ∈ l.whole, c.isDigit = true)
    (hfraction : ∀ c ∈ l.fraction, c.isDigit = true) (h : ¬ l.Overflows)
    (hfactor : magnitude l.factor = 0) : magnitude l.value = 0 := by
  have hfinite : magnitude l.factor ≠ infinite := by
    rw [hfactor]
    decide
  obtain ⟨hrounds, -⟩ := value_of_finite hwhole hfraction h hfinite
  have hzero : magnitude 0.0 < infinite := magnitude_zero ▸ by decide
  have hself := rounds_self hzero
  rw [size, magnitude_zero, amount_zero] at hself
  have hle := hrounds.mono hself (by rw [size, size, hfactor, amount_zero, mul_zero])
  rw [magnitude_zero] at hle
  exact Nat.le_zero.mp hle

end

end Literal

namespace Number

/-! ## Digits and their values -/

namespace Digits

variable {d : Digits}

theorem value_decimal (d : Digits) :
    d.decimal.value = digitsValue d.digits * 10 ^ (d.place - d.digits.length) := rfl

theorem value_decimal_lt (h : IsDigits d.digits) : d.decimal.value < 10 ^ d.place := by
  have hlt : (digitsValue d.digits : ℚ) < 10 ^ d.digits.length := by
    exact_mod_cast Literal.digitsValue_lt (isDigits_iff.mp h).2
  calc d.decimal.value < 10 ^ d.digits.length * 10 ^ (d.place - d.digits.length) :=
        mul_lt_mul_of_pos_right hlt (zpow_pos (by norm_num) _)
    _ = 10 ^ d.place := by
        rw [← zpow_natCast, ← zpow_add₀ (by norm_num)]
        congr 1
        omega

theorem le_value_decimal (h : IsDigits d.digits)
    (hfirst : 10 ^ (d.digits.length - 1) ≤ digitsValue d.digits) :
    10 ^ (d.place - 1) ≤ d.decimal.value := by
  have hpos : 0 < d.digits.length := List.length_pos_iff.mpr (isDigits_iff.mp h).1
  have hle : (10 ^ (d.digits.length - 1) : ℚ) ≤ digitsValue d.digits := by exact_mod_cast hfirst
  calc (10 : ℚ) ^ (d.place - 1)
      = 10 ^ (d.digits.length - 1) * 10 ^ (d.place - d.digits.length) := by
        rw [← zpow_natCast, ← zpow_add₀ (by norm_num)]
        congr 1
        omega
    _ ≤ d.decimal.value := mul_le_mul_of_nonneg_right hle (zpow_nonneg (by norm_num) _)

/-! ## Literals with and without a power -/

/-- With a power of ten the whole part is the first digit, which is not zero. -/
theorem isLiteral_scientific {sign : List Char} {negative : Bool} (h : IsDigits d.digits)
    (hfirst : 10 ^ (d.digits.length - 1) ≤ digitsValue d.digits) (hsign : IsSign sign negative) :
    ∃ l, IsLiteral (sign ++ d.scientific []) l ∧ l.negative = negative ∧
      l.exact = d.decimal.value ∧ l.whole.length ≤ d.digits.length ∧
      l.fraction.length ≤ d.digits.length ∧ digitsValue l.whole ≠ 0 ∧
      l.powerNegative = decide (d.place - 1 < 0) ∧
      digitsValue l.power = (d.place - 1).natAbs := by
  obtain ⟨c, r, point, hd, hwhole, hpoint, htext⟩ := scientific_parts h []
  have hl := IsLiteral.mk hsign hwhole hpoint
    (.present (isSign_power .absent (d.place - 1)) (isDigits_toDigits (d.place - 1).natAbs))
  rw [List.append_assoc, List.append_assoc, ← List.append_assoc [c], ← htext] at hl
  have hpower := digitsValue_toDigits (d.place - 1).natAbs
  have hlength := congrArg List.length hd
  rw [List.length_cons] at hlength
  refine ⟨_, hl, rfl, ?_, ?_, ?_, fun hzero => ?_, rfl, hpower⟩
  · have hplace : d.place - d.digits.length = d.place - 1 - r.length := by omega
    have hpow : (10 : ℚ) ^ (d.place - 1 - r.length) = 10 ^ (d.place - 1) / 10 ^ r.length := by
      rw [zpow_sub₀ (by norm_num), zpow_natCast]
    rw [Literal.exact_eq_of_power rfl hpower, Literal.exactMantissa_eq, value_decimal, hplace, hpow,
      List.singleton_append, ← hd, div_mul_eq_mul_div, mul_div_assoc]
  · show 1 ≤ d.digits.length
    omega
  · show r.length ≤ d.digits.length
    omega
  · have hall : ∀ x ∈ r, x.isDigit = true := fun x hx =>
      (isDigits_iff.mp h).2 x (by rw [hd]; exact .tail _ hx)
    have hlt := Literal.digitsValue_lt hall
    have happend := digitsValue_append [c] r
    rw [List.singleton_append, ← hd, hzero, Nat.zero_mul, Nat.zero_add] at happend
    rw [hd, List.length_cons, Nat.add_sub_cancel, ← hd, happend] at hfirst
    omega

theorem isLiteral_positional {sign : List Char} {negative : Bool} (h : IsDigits d.digits)
    (hsign : IsSign sign negative) :
    ∃ l, IsLiteral (sign ++ d.positional) l ∧ l.negative = negative ∧
      l.exact = d.decimal.value ∧ l.whole.length ≤ d.positional.length ∧
      l.fraction.length ≤ d.positional.length ∧ l.powerNegative = false ∧
      digitsValue l.power = 0 := by
  obtain ⟨k, hplace, hwhole, htext⟩ | ⟨whole, fraction, hwhole, hfraction, htext, hvalue, hplace⟩ :=
    positional_cases h
  · have hl := IsLiteral.mk hsign hwhole .absent .absent
    rw [List.append_nil, List.append_nil, ← htext] at hl
    refine ⟨_, hl, rfl, ?_, le_rfl, Nat.zero_le _, rfl, rfl⟩
    have hexp : d.place - d.digits.length = (k : Int) := by omega
    rw [Literal.exact_eq_of_power (e := 0) rfl rfl, Literal.exactMantissa_eq, List.append_nil,
      htext, digitsValue_append_zeros, value_decimal, hexp, zpow_natCast, zpow_zero,
      List.length_nil, pow_zero, div_one, mul_one]
    push_cast
    rfl
  · have hl := IsLiteral.mk hsign hwhole (.present hfraction) .absent
    rw [List.append_nil, List.append_assoc, ← htext] at hl
    have hlength := congrArg List.length htext
    rw [List.length_append, List.length_cons] at hlength
    refine ⟨_, hl, rfl, ?_, ?_, ?_, rfl, rfl⟩
    · rw [Literal.exact_eq_of_power (e := 0) rfl rfl, Literal.exactMantissa_eq, value_decimal,
        ← hvalue, hplace, zpow_neg, zpow_natCast, zpow_zero, mul_one]
      rfl
    · show whole.length ≤ d.positional.length
      omega
    · show fraction.length ≤ d.positional.length
      omega

theorem length_scientific_le {k : Nat} (hk : 0 < k) (h : (d.place - 1).natAbs < 10 ^ k) :
    (d.scientific []).length ≤ d.digits.length + 3 + k := by
  have hpower := (Nat.length_toDigits_le_iff (by decide) hk).mpr h
  have hfraction : (if (d.digits.drop 1).isEmpty then [] else '.' :: d.digits.drop 1).length
      ≤ d.digits.length - 1 + 1 := by
    split
    · exact Nat.zero_le _
    · rw [List.length_cons, List.length_drop]
  have hsign : (if d.place - 1 < 0 then ['-'] else ([] : List Char)).length ≤ 1 := by
    split <;> decide
  simp only [scientific, List.length_append, List.length_take, List.length_singleton]
  omega

end Digits

/-! ## Printed numbers -/

theorem exists_signed (x : Float) :
    ∃ sign, IsSign sign (isNegative x) ∧ ∀ text, signed x text = sign ++ text := by
  unfold signed
  cases isNegative x with
  | true => exact ⟨['-'], .minus, fun _ => rfl⟩
  | false => exact ⟨[], .absent, fun _ => rfl⟩

/--
The powers of ten next to the range of the doubles, and the least one that the reader keeps, which
is printed as a one and a power of ten.
-/
theorem toMagnitude_ends : (Decimal.mk 1 309).toMagnitude = infinite ∧
    (Decimal.mk 1 (-324)).toMagnitude = 0 ∧ 0 < (Decimal.mk 1 (-308)).toMagnitude ∧
    Digits.ofDecimal (.shortest .up (Decimal.mk 1 (-308)).toMagnitude) = ⟨['1'], -307⟩ := by
  decide +kernel

section
variable {x : Float}

theorem le_digitsValue_digits (hnan : x.isNaN = false) (hinf : x.isInf = false)
    (hne : magnitude x ≠ 0) :
    10 ^ ((digits .up x).digits.length - 1) ≤ digitsValue (digits .up x).digits := by
  apply Digits.le_digitsValue_ofDecimal
  intro hzero
  have hread := Decimal.toMagnitude_shortest .up (magnitude_lt_infinite hnan hinf)
  rw [Decimal.toMagnitude_eq, if_pos hzero] at hread
  exact hne hread.symm

theorem le_decimal_digits (hnan : x.isNaN = false) (hinf : x.isInf = false)
    (hne : magnitude x ≠ 0) :
    (10 : ℚ) ^ ((digits .up x).place - 1) ≤ (digits .up x).decimal.value :=
  Digits.le_value_decimal (isDigits_digits .up x) (le_digitsValue_digits hnan hinf hne)

/-- The digits of a double begin at most 309 places in front of the point, or 323 behind it. -/
theorem place_bounds (hnan : x.isNaN = false) (hinf : x.isInf = false) (hne : magnitude x ≠ 0) :
    -323 ≤ (digits .up x).place ∧ (digits .up x).place ≤ 309 := by
  have hread := toMagnitude_digits .up hnan hinf
  have hlower := le_decimal_digits hnan hinf hne
  have hupper := Digits.value_decimal_lt (isDigits_digits .up x)
  constructor
  · by_contra hplace
    have hle : (digits .up x).decimal.value ≤ (Decimal.mk 1 (-324)).value := by
      rw [Decimal.value_one]
      exact hupper.le.trans (zpow_le_zpow_right₀ (by norm_num) (by omega))
    have hzero := Decimal.toMagnitude_mono hle
    rw [hread, toMagnitude_ends.2.1] at hzero
    exact hne (Nat.le_zero.mp hzero)
  · by_contra hplace
    have hle : (Decimal.mk 1 309).value ≤ (digits .up x).decimal.value := by
      rw [Decimal.value_one]
      exact (zpow_le_zpow_right₀ (by norm_num) (by omega)).trans hlower
    have hinfinite := Decimal.toMagnitude_mono hle
    rw [hread, toMagnitude_ends.1] at hinfinite
    exact absurd (magnitude_lt_infinite hnan hinf) (Nat.not_lt.mpr hinfinite)

/--
The literal that a number other than zero is printed as denotes its shortest decimal. Its parts are
short; with a power of ten, which is one less than the place of the first digit, its whole part is
not zero.
-/
theorem spelled_parts (hnan : x.isNaN = false) (hinf : x.isInf = false) (hne : magnitude x ≠ 0) :
    (spelled x).negative = isNegative x ∧ (spelled x).whole.length ≤ 25 ∧
    (spelled x).fraction.length ≤ 25 ∧
    (spelled x).exact = (digits .up x).decimal.value ∧
    ((digitsValue (spelled x).whole ≠ 0 ∧
        (spelled x).powerNegative = decide ((digits .up x).place - 1 < 0) ∧
        digitsValue (spelled x).power = ((digits .up x).place - 1).natAbs) ∨
      (spelled x).powerNegative = false ∧ digitsValue (spelled x).power = 0) := by
  have hdigits := isDigits_digits .up x
  have hfirst := le_digitsValue_digits hnan hinf hne
  have hlength := length_digits_le .up (magnitude_lt_infinite hnan hinf)
  have hplace := place_bounds hnan hinf hne
  obtain ⟨sign, hsign, htext⟩ := exists_signed x
  have hliteral : literal x =
      if (finiteScientific x).length < (finitePlain x).length then finiteScientific x
      else finitePlain x := by
    rw [literal, hnan, hinf]
    rfl
  by_cases hshorter : (finiteScientific x).length < (finitePlain x).length
  · obtain ⟨l, hl, hnegative, hexact, hwhole, hfraction, hpower⟩ :=
      Digits.isLiteral_scientific hdigits hfirst hsign
    rw [if_pos hshorter, finiteScientific, htext] at hliteral
    rw [← hliteral] at hl
    rw [spelled_eq hl]
    exact ⟨hnegative, by omega, by omega, hexact, .inl hpower⟩
  · obtain ⟨l, hl, hnegative, hexact, hwhole, hfraction, hpower⟩ :=
      Digits.isLiteral_positional hdigits hsign
    rw [if_neg hshorter, finitePlain, htext] at hliteral
    rw [← hliteral] at hl
    rw [finiteScientific, finitePlain, htext, htext, List.length_append, List.length_append]
      at hshorter
    have hplace' : ((digits .up x).place - 1).natAbs < 10 ^ 3 := by omega
    have hscientific := Digits.length_scientific_le (by decide) hplace'
    rw [spelled_eq hl]
    exact ⟨hnegative, by omega, by omega, hexact, .inr hpower⟩

/-! ## Values that come back -/

/-- The factor of the power that a number is printed with is finite. -/
theorem factor_spelled_ne_infinite (hnan : x.isNaN = false) (hinf : x.isInf = false)
    (hne : magnitude x ≠ 0) : magnitude (spelled x).factor ≠ infinite := by
  obtain ⟨-, -, -, -, hpower⟩ := spelled_parts hnan hinf hne
  have hplace := place_bounds hnan hinf hne
  intro hinfinite
  obtain ⟨hpositive, hlarge⟩ := (spelled x).factor_eq_infinite_iff.mp hinfinite
  rcases hpower with ⟨-, hsign, hpower⟩ | ⟨-, hpower⟩
  · rw [hpositive] at hsign
    have hsign := of_decide_eq_false hsign.symm
    omega
  · omega

theorem exactMantissa_spelled_ne_zero (hnan : x.isNaN = false) (hinf : x.isInf = false)
    (hne : magnitude x ≠ 0) : (spelled x).exactMantissa ≠ 0 := by
  obtain ⟨-, -, -, hexact, -⟩ := spelled_parts hnan hinf hne
  have hvalue : 0 < (digits .up x).decimal.value :=
    (zpow_pos (by norm_num) _).trans_le (le_decimal_digits hnan hinf hne)
  intro hzero
  rw [← hexact, Literal.exact, hzero, zero_mul] at hvalue
  exact hvalue.false

/-- Only a number below the powers that the reader keeps is printed with a power that it loses. -/
theorem decimal_lt_of_factor_zero (hnan : x.isNaN = false) (hinf : x.isInf = false)
    (hne : magnitude x ≠ 0) (hzero : magnitude (spelled x).factor = 0) :
    (digits .up x).decimal.value < 10 ^ (-308 : Int) := by
  obtain ⟨-, -, -, -, hpower⟩ := spelled_parts hnan hinf hne
  obtain ⟨hnegative, hsmall⟩ := (spelled x).factor_eq_zero_iff.mp hzero
  refine (Digits.value_decimal_lt (isDigits_digits .up x)).trans_le
    (zpow_le_zpow_right₀ (by norm_num) ?_)
  rcases hpower with ⟨-, hplace, hpower⟩ | ⟨-, hpower⟩
  · rw [hnegative] at hplace
    have hplace := of_decide_eq_true hplace.symm
    omega
  · omega

/-- Without a power the mantissa may be small, with one it is at least the first digit. -/
theorem le_decimal_of_factor_ne_zero (hnan : x.isNaN = false) (hinf : x.isInf = false)
    (hne : magnitude x ≠ 0) (hfactor : magnitude (spelled x).factor ≠ 0) :
    (1 ≤ size (spelled x).mantissa ∨ 1 ≤ size (spelled x).factor) ∧
    10 ^ (-308 : Int) ≤ (digits .up x).decimal.value := by
  obtain ⟨-, hw, hf, hexact, hpower⟩ := spelled_parts hnan hinf hne
  obtain ⟨hwhole, hfraction⟩ := isDigit_of_isLiteral (isLiteral_spelled hnan hinf)
  rcases hpower with ⟨hfirst, hplace, hpower⟩ | ⟨hplace, hpower⟩
  · have hshort := Literal.not_overflows_of_short hwhole hfraction hw hf
    refine ⟨.inl ((Literal.one_le_size_digitsFloat hwhole hfirst).trans
      (Literal.size_parts_le_mantissa hwhole hfraction hshort).1), ?_⟩
    refine (zpow_le_zpow_right₀ (by norm_num) ?_).trans (le_decimal_digits hnan hinf hne)
    by_contra hsmall
    rw [decide_eq_true (by omega)] at hplace
    exact hfactor ((spelled x).factor_eq_zero_iff.mpr ⟨hplace, by omega⟩)
  · refine ⟨.inr (Literal.one_le_size_factor hplace), ?_⟩
    rw [← hexact, Literal.exact_eq_of_power (e := 0) hplace hpower, zpow_zero, mul_one]
    exact Literal.le_exactMantissa hf (exactMantissa_spelled_ne_zero hnan hinf hne)

theorem spelled_value (hnan : x.isNaN = false) (hinf : x.isInf = false) (hne : magnitude x ≠ 0) :
    magnitude (spelled x).value ≤ infinite ∧ isNegative (spelled x).value = isNegative x ∧
    (magnitude (spelled x).value = 0 ↔ (digits .up x).decimal.value < 10 ^ (-308 : Int)) ∧
    (magnitude (spelled x).value = infinite →
      179769313486 * 10 ^ 297 ≤ (digits .up x).decimal.value) := by
  obtain ⟨hnegative, hw, hf, hexact, -⟩ := spelled_parts hnan hinf hne
  obtain ⟨hwhole, hfraction⟩ := isDigit_of_isLiteral (isLiteral_spelled hnan hinf)
  have hfactor := factor_spelled_ne_infinite hnan hinf hne
  have hshort := Literal.not_overflows_of_short hwhole hfraction hw hf
  obtain ⟨-, hsign⟩ := Literal.value_of_finite hwhole hfraction hshort hfactor
  refine ⟨Literal.magnitude_value_le hwhole hfraction hshort, hsign.trans hnegative, ?_,
    fun hinfinite =>
      hexact ▸ Literal.le_exact_of_infinite hwhole hfraction hshort hfactor hinfinite⟩
  by_cases hzero : magnitude (spelled x).factor = 0
  · exact ⟨fun _ => decimal_lt_of_factor_zero hnan hinf hne hzero, fun _ =>
      Literal.value_of_factor_zero hwhole hfraction hshort hzero⟩
  · have hm := Literal.mantissa_ne_zero hwhole hfraction hshort hf
      (exactMantissa_spelled_ne_zero hnan hinf hne)
    obtain ⟨hone, hle⟩ := le_decimal_of_factor_ne_zero hnan hinf hne hzero
    exact ⟨fun hvalue => absurd hvalue
      (Literal.value_ne_zero hwhole hfraction hshort hm hzero hone hfactor),
      fun hlt => absurd hlt hle.not_gt⟩

/-- The doubles whose decimals are too small are those below the double of the bound. -/
theorem value_digits_lt_iff (hnan : x.isNaN = false) (hinf : x.isInf = false) :
    (digits .up x).decimal.value < 10 ^ (-308 : Int) ↔
      magnitude x < (Decimal.mk 1 (-308)).toMagnitude := by
  have hread := toMagnitude_digits .up hnan hinf
  rw [← Decimal.value_one]
  constructor
  · intro hlt
    refine Nat.lt_of_le_of_ne (hread ▸ Decimal.toMagnitude_mono hlt.le) fun heq => ?_
    rw [digits, heq, toMagnitude_ends.2.2.2] at hlt
    exact hlt.ne rfl
  · intro hlt
    by_contra hle
    have hmono := Decimal.toMagnitude_mono (not_lt.mp hle)
    rw [hread] at hmono
    exact absurd hlt (Nat.not_lt.mpr hmono)

theorem value_spelled_zero : ∀ negative,
    (spelled (ofMagnitude negative 0)).value = ofMagnitude negative 0 := by
  decide +kernel

end

end Number

/--
A printed number comes back as a number of its own sign. It comes back as zero exactly if it is zero
or so small that its power of ten has no finite reciprocal, and as infinity only if it hardly is
below the largest double.
-/
theorem printed_literal_kept {v : Float} (hnan : v.isNaN = false) (hinf : v.isInf = false) :
    ∃ w : Float, Expr.parse (Expr.literal v).text = .ok (.literal w) ∧
      w.isNaN = false ∧ isNegative w = isNegative v ∧
      ((w == 0.0) = true ↔ magnitude v < (Decimal.mk 1 (-308)).toMagnitude) ∧
      (w.isInf = true → (Decimal.mk 179769313486 297).toMagnitude ≤ magnitude v) := by
  have hparse := parse_text.1 (.literal v) trivial
  rw [Expr.reread, Expr.rereadWith, Number.reread, hnan, hinf, if_neg Bool.false_ne_true,
    if_neg Bool.false_ne_true] at hparse
  refine ⟨(spelled v).value, hparse, ?_⟩
  rw [Bool.eq_false_iff, Ne, isNaN_iff, Nat.not_lt, beq_zero_iff, isInf_iff]
  by_cases hzero : magnitude v = 0
  · have hvalue : (spelled v).value = v := by
      rw [← ofMagnitude_magnitude v, hzero]
      exact value_spelled_zero (isNegative v)
    rw [hvalue, hzero]
    exact ⟨Nat.zero_le _, rfl, iff_of_true rfl toMagnitude_ends.2.2.1,
      fun h => absurd h (by decide)⟩
  · rw [← value_digits_lt_iff hnan hinf]
    obtain ⟨hnumber, hsign, hlost, hinfinite⟩ := spelled_value hnan hinf hzero
    refine ⟨hnumber, hsign, hlost, fun h => ?_⟩
    have hvalue : (Decimal.mk 179769313486 297).value = 179769313486 * 10 ^ 297 := rfl
    rw [← toMagnitude_digits .up hnan hinf]
    exact Decimal.toMagnitude_mono (hvalue ▸ hinfinite h)

/-- The sum of a tenth and two tenths is neither too small nor too large. -/
theorem printed_literal_kept_sum :
    let v : Float := 0.1 + 0.2
    v.isNaN = false ∧ v.isInf = false ∧
      ∃ w : Float, Expr.parse (Expr.literal v).text = .ok (.literal w) ∧ (w == 0.0) = false ∧
        w.isNaN = false ∧ w.isInf = false := by
  intro v
  have hv : v.isNaN = false ∧ v.isInf = false ∧
      (Decimal.mk 1 (-308)).toMagnitude ≤ magnitude v ∧
      magnitude v < (Decimal.mk 179769313486 297).toMagnitude := by
    decide +kernel
  obtain ⟨hnan, hinf, hsmall, hlarge⟩ := hv
  obtain ⟨w, hparse, hnumber, -, hlost, hinfinite⟩ := printed_literal_kept hnan hinf
  refine ⟨hnan, hinf, w, hparse, Bool.eq_false_iff.mpr fun h => ?_, hnumber,
    Bool.eq_false_iff.mpr fun h => ?_⟩
  · exact absurd (hlost.mp h) (Nat.not_lt.mpr hsmall)
  · exact absurd (hinfinite h) (Nat.not_le.mpr hlarge)

/--
The least double is printed as a literal that is read as zero, and the largest one as a literal that
is read as infinity.
-/
theorem extreme_literals_lost :
    let least : Float := .ofBits 1
    let largest : Float := .ofBits 0x7fefffffffffffff
    (least.isInf = false ∧ (least == 0.0) = false ∧ (Expr.literal least).text = "5e-324" ∧
      Expr.parse (Expr.literal least).text = .ok (.literal 0.0)) ∧
    largest.isInf = false ∧ (Expr.literal largest).text = "1.7976931348623157e308" ∧
      ∃ w : Float, Expr.parse (Expr.literal largest).text = .ok (.literal w) ∧ w.isInf = true := by
  intro least largest
  have hread : ∀ v : Float, Expr.parse (Expr.literal v).text = .ok (Number.reread v) :=
    fun v => parse_text.1 (.literal v) trivial
  have hvalues : (least.isInf = false ∧ (least == 0.0) = false ∧
      (Expr.literal least).text = "5e-324" ∧ Number.reread least = .literal 0.0) ∧
      largest.isInf = false ∧ (Expr.literal largest).text = "1.7976931348623157e308" ∧
      Number.reread largest = .literal (spelled largest).value ∧
      (spelled largest).value.isInf = true := by
    decide +kernel
  obtain ⟨⟨hinf, hne, htext, hzero⟩, hinf', htext', hvalue, hinfinite⟩ := hvalues
  exact ⟨⟨hinf, hne, htext, hzero ▸ hread least⟩, hinf', htext', _, hvalue ▸ hread largest,
    hinfinite⟩

end ColumnCalc
