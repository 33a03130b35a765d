import ColumnCalc.Proofs.Number.Rereading
import ColumnCalc.Proofs.Number.Rounding

/-!
# Shortest decimals are short

A decimal with seventeen digits or more is so fine that the next one above a double lies within half
a unit of its last place, so it reads back as the double (`toMagnitude_succ_truncate`). The search
for the shortest decimal therefore ends after at most eighteen tries (`exists_neighbour?`), and no
finite number has more than nineteen digits (`length_digits_le`). Decimals read as doubles in the
order of their values (`toMagnitude_mono`).
-/

namespace ColumnCalc.Number

/-! ## Fractions near a double -/

theorem exists_significand (m : Nat) :
    ∃ k r, m = k * 2 ^ 52 + r ∧ r < 2 ^ 53 ∧ (k = 0 ∨ 2 ^ 52 ≤ r) := by
  rcases Nat.lt_or_ge m (2 ^ 52) with hsub | hnormal
  · exact ⟨0, m, by omega, by omega, .inl rfl⟩
  · exact ⟨m / 2 ^ 52 - 1, m % 2 ^ 52 + 2 ^ 52, by omega, by omega, .inr (by omega)⟩

theorem roundDiv_of_near {num den q : Nat} (hle : q * den ≤ num)
    (hnear : 2 * (num - q * den) < den) : roundDiv num den = q := by
  have hrest : num = den * q + (num - q * den) := by
    rw [Nat.mul_comm den]
    omega
  have hlt : num - q * den < den := by omega
  have hdiv : num / den = q := by
    rw [hrest, Nat.mul_add_div (by omega), Nat.div_eq_of_lt hlt, Nat.add_zero]
  have hmod : num % den = num - q * den := by
    rw [hrest, Nat.mul_add_mod, Nat.mod_eq_of_lt hlt, ← hrest]
  unfold roundDiv
  rw [hmod, hdiv]
  exact if_pos hnear

/-- What is above a double by less than half a unit of its last place is rounded down to it. -/
theorem nearest_of_near {m num den : Nat} (h : m < infinite) (hden : 0 < den)
    (hle : units m * den ≤ num) (hnear : 2 ^ 54 * (num - units m * den) ≤ units m * den) :
    nearest num den = m := by
  obtain ⟨k, r, rfl, hr, hk⟩ := exists_significand m
  have hunits := units_of_significand hr.le hk
  rw [hunits, Nat.mul_right_comm, Nat.mul_assoc] at hle hnear
  have hplace : 0 < den * 2 ^ k := Nat.mul_pos hden (Nat.two_pow_pos k)
  have hbound : r * (den * 2 ^ k) + den * 2 ^ k ≤ 2 ^ 53 * (den * 2 ^ k) := by
    rw [← Nat.succ_mul]
    exact Nat.mul_le_mul_right _ hr
  have hhalf : 2 * (num - r * (den * 2 ^ k)) < den * 2 ^ k := by omega
  have hscale : scale num den = k := by
    have hpow : ∀ n : Nat, 2 ^ (n + k) * den = 2 ^ n * (den * 2 ^ k) := fun n => by
      rw [Nat.pow_add, Nat.mul_assoc, Nat.mul_comm (2 ^ k)]
    refine scale_eq hden ?_ (hk.imp_right fun hnormal => ?_)
    · rw [hpow]
      omega
    · rw [hpow]
      exact (Nat.mul_le_mul_right _ hnormal).trans hle
  have hsignificand : significand num den = r := by
    unfold significand
    rw [hscale]
    exact roundDiv_of_near hle hhalf
  rw [nearest_eq_min, hscale, hsignificand]
  exact Nat.min_eq_left h.le

namespace Decimal

/-! ## Counting digits -/

theorem digitCount_eq (n : Nat) : digitCount n =
    if n < 10 ^ 16 then (Nat.toDigits 10 n).length else digitCount (n / 10 ^ 16) + 16 := by
  rw [digitCount]
  rfl

theorem digitCount_pos (n : Nat) : 0 < digitCount n := by
  rw [digitCount_eq]
  split
  · exact Nat.length_toDigits_pos
  · omega

theorem digitCount_le_iff {n k : Nat} (hk : 0 < k) : digitCount n ≤ k ↔ n < 10 ^ k := by
  induction n using Nat.strong_induction_on generalizing k with
  | _ n ih =>
    rw [digitCount_eq]
    split
    · exact Nat.length_toDigits_le_iff (by decide) hk
    · rename_i hlarge
      have hpos := digitCount_pos (n / 10 ^ 16)
      have hshorter : n / 10 ^ 16 < n := Nat.div_lt_self (by omega) (by decide)
      rcases Nat.lt_or_ge 16 k with hlong | hshort
      · obtain ⟨j, rfl⟩ := Nat.exists_eq_add_of_lt hlong
        have hj : 16 + j + 1 = j + 1 + 16 := by omega
        rw [hj, Nat.add_le_add_iff_right, ih _ hshorter (Nat.succ_pos j),
          Nat.div_lt_iff_lt_mul (by decide), ← Nat.pow_add]
      · have hpow : 10 ^ k ≤ 10 ^ 16 := Nat.pow_le_pow_right (by decide) hshort
        omega

theorem pow_digitCount_le {n : Nat} (h : 0 < n) : 10 ^ (digitCount n - 1) ≤ n := by
  rcases Nat.lt_or_ge 1 (digitCount n) with hlong | hshort
  · by_contra hlt
    have hle := (digitCount_le_iff (k := digitCount n - 1) (by omega)).mpr (Nat.not_le.mp hlt)
    omega
  · rw [Nat.sub_eq_zero_of_le hshort]
    exact h

/-! ## Decimals with one digit more in the last place -/

/-- All digits of a magnitude stand for its units. -/
theorem exact_units {m : Nat} :
    (exact m).coefficient * 10 ^ (exact m).exponent.toNat * 2 ^ places
      = units m * 10 ^ (-(exact m).exponent).toNat := by
  have hfives : ∀ c k : Nat, k ≤ places →
      c * 5 ^ k * 2 ^ places = c * 2 ^ (places - k) * 10 ^ k := by
    intro c k hk
    have hten : 10 ^ k = 5 ^ k * 2 ^ k := Nat.mul_pow 5 2 k
    have hpow : 2 ^ places = 2 ^ (places - k) * 2 ^ k := by
      rw [← Nat.pow_add, Nat.sub_add_cancel hk]
    rw [hpow, hten]
    ac_rfl
  have hneg : ∀ k : Nat, (-(k : Int)).toNat = 0 ∧ (- -(k : Int)).toNat = k := fun k => by omega
  rw [exact_eq, units_eq]
  split
  · rw [(hneg _).1, (hneg _).2, Nat.pow_zero, Nat.mul_one, hfives _ _ le_rfl, Nat.sub_self,
      Nat.pow_zero, Nat.mul_one]
  · split
    · rename_i hsub hsmall
      have hexp : places - (places + 1 - m / 2 ^ 52) = m / 2 ^ 52 - 1 := by omega
      rw [(hneg _).1, (hneg _).2, Nat.pow_zero, Nat.mul_one, hfives _ _ (by omega), hexp]
    · rename_i hsub hlarge
      have hexp : m / 2 ^ 52 - 1 = m / 2 ^ 52 - 1 - places + places := by omega
      have hzero : (0 : Int).toNat = 0 ∧ (-(0 : Int)).toNat = 0 := ⟨rfl, rfl⟩
      rw [hzero.1, hzero.2, Nat.pow_zero, Nat.mul_one, Nat.mul_one, Nat.mul_assoc, ← Nat.pow_add,
        ← hexp]

theorem toMagnitude_of_near {m c : Nat} (h : m < infinite) (hle : (exact m).coefficient ≤ c)
    (hnear : 2 ^ 54 * (c - (exact m).coefficient) ≤ (exact m).coefficient) :
    (Decimal.mk c (exact m).exponent).toMagnitude = m := by
  have hunits := exact_units (m := m)
  generalize (exact m).coefficient = c₀ at hle hnear hunits
  rw [toMagnitude_eq_nearest]
  simp only
  refine nearest_of_near h (ten_pow_pos _) ?_ ?_
  · rw [← hunits]
    exact Nat.mul_le_mul_right _ (Nat.mul_le_mul_right _ hle)
  · rw [← hunits, ← Nat.sub_mul, ← Nat.sub_mul, ← Nat.mul_assoc, ← Nat.mul_assoc]
    exact Nat.mul_le_mul_right _ (Nat.mul_le_mul_right _ hnear)

/-- The next decimal above a double reads back as it if the digits it keeps are fine enough. -/
theorem toMagnitude_succ_truncate {m dropped : Nat} (h : m < infinite)
    (hfine : 2 ^ 54 * 10 ^ dropped ≤ (exact m).coefficient) :
    ((exact m).truncate dropped).succ.toMagnitude = m := by
  have hpos := ten_pow_pos dropped
  have hrest := Nat.mod_lt (exact m).coefficient hpos
  have hsplit := Nat.div_add_mod (exact m).coefficient (10 ^ dropped)
  have hstep : ((exact m).coefficient / 10 ^ dropped + 1) * 10 ^ dropped
      = (exact m).coefficient - (exact m).coefficient % 10 ^ dropped + 10 ^ dropped := by
    rw [Nat.succ_mul, Nat.mul_comm]
    omega
  calc ((exact m).truncate dropped).succ.toMagnitude
      = (Decimal.mk (((exact m).coefficient / 10 ^ dropped + 1) * 10 ^ dropped)
          (exact m).exponent).toMagnitude := (toMagnitude_scale _ _ _).symm
    _ = m := by
      rw [hstep]
      refine toMagnitude_of_near h (by omega) ((Nat.mul_le_mul_left _ ?_).trans hfine)
      omega

/-! ## The search -/

theorem eq_of_neighbour? {tie : Tie} {m dropped : Nat} {d r : Decimal}
    (h : neighbour? tie m d dropped = some r) :
    r = d.truncate dropped ∨ r = (d.truncate dropped).succ := by
  simp only [neighbour?] at h
  cases d.roundsUp tie dropped with
  | true => grind
  | false => grind

theorem coefficient_neighbour?_le {tie : Tie} {m dropped : Nat} {d r : Decimal}
    (h : neighbour? tie m d dropped = some r) : r.coefficient ≤ d.coefficient / 10 ^ dropped + 1 := by
  rcases eq_of_neighbour? h with rfl | rfl
  · exact Nat.le_succ _
  · exact le_rfl

theorem isSome_neighbour? {tie : Tie} {m dropped : Nat} {d : Decimal}
    (h : (d.truncate dropped).succ.toMagnitude = m) : (neighbour? tie m d dropped).isSome = true := by
  simp only [neighbour?]
  cases d.roundsUp tie dropped with
  | true => grind
  | false => grind

/-- Of eighteen digits or more the search looks at no more than the first eighteen. -/
theorem exists_neighbour? (tie : Tie) {m : Nat} (h : m < infinite) :
    (shortest tie m = exact m ∧ digitCount (exact m).coefficient < 18) ∨
      ∃ kept < 18, neighbour? tie m (exact m) (digitCount (exact m).coefficient - kept - 1)
        = some (shortest tie m) := by
  simp only [shortest]
  generalize hcount : digitCount (exact m).coefficient = count
  obtain ⟨search, hsearch⟩ :
      ∃ search, search = fun kept => neighbour? tie m (exact m) (count - kept - 1) := ⟨_, rfl⟩
  simp only [← hsearch]
  rcases Nat.lt_or_ge count 18 with hshort | hlong
  · cases hfound : (List.range count).findSome? search with
    | none => exact .inl ⟨rfl, hshort⟩
    | some r =>
      obtain ⟨kept, hkept, hr⟩ := List.exists_of_findSome?_eq_some hfound
      rw [hsearch] at hr
      exact .inr ⟨kept, (List.mem_range.mp hkept).trans hshort, hr⟩
  · have hfine : 2 ^ 54 * 10 ^ (count - 17 - 1) ≤ (exact m).coefficient := by
      have hpos : 0 < (exact m).coefficient := by
        by_contra hzero
        rw [Nat.eq_zero_of_not_pos hzero] at hcount
        have hone : digitCount 0 ≤ 1 := (digitCount_le_iff Nat.one_pos).mpr (by decide)
        omega
      calc 2 ^ 54 * 10 ^ (count - 17 - 1) ≤ 10 ^ 17 * 10 ^ (count - 17 - 1) :=
            Nat.mul_le_mul_right _ (by decide)
        _ = 10 ^ (count - 1) := by
            rw [← Nat.pow_add]
            congr 1
            omega
        _ ≤ (exact m).coefficient := hcount ▸ pow_digitCount_le hpos
    have hsome : (search 17).isSome = true := by
      rw [hsearch]
      exact isSome_neighbour? (toMagnitude_succ_truncate h hfine)
    obtain ⟨rest, rfl⟩ := Nat.exists_eq_add_of_le hlong
    have hfirst : ((List.range 18).findSome? search).isSome = true :=
      List.findSome?_isSome_iff.mpr ⟨17, List.mem_range.mpr (by decide), hsome⟩
    obtain ⟨r, hr⟩ := Option.isSome_iff_exists.mp hfirst
    obtain ⟨kept, hkept, hfound⟩ := List.exists_of_findSome?_eq_some hr
    rw [List.range_add, List.findSome?_append, hr]
    rw [hsearch] at hfound
    exact .inr ⟨kept, List.mem_range.mp hkept, hfound⟩

/-- Eighteen digits, or a one with eighteen zeros. -/
theorem coefficient_shortest_le (tie : Tie) {m : Nat} (h : m < infinite) :
    (shortest tie m).coefficient ≤ 10 ^ 18 := by
  have hpos := digitCount_pos (exact m).coefficient
  have hlt := (digitCount_le_iff hpos).mp le_rfl
  rcases exists_neighbour? tie h with ⟨hexact, hshort⟩ | ⟨kept, hkept, hfound⟩
  · rw [hexact]
    exact hlt.le.trans (Nat.pow_le_pow_right (by decide) hshort.le)
  · refine (coefficient_neighbour?_le hfound).trans ?_
    rw [Nat.succ_le_iff, Nat.div_lt_iff_lt_mul (ten_pow_pos _), ← Nat.pow_add]
    exact hlt.trans_le (Nat.pow_le_pow_right (by decide) (by omega))

/-! ## Values -/

/-- The number that a decimal stands for. -/
def value (d : Decimal) : ℚ :=
  d.coefficient * 10 ^ d.exponent

theorem value_eq (d : Decimal) :
    d.value = d.coefficient * 10 ^ d.exponent.toNat / 10 ^ (-d.exponent).toNat := by
  have hexp : d.exponent = (d.exponent.toNat : Int) - (-d.exponent).toNat := by omega
  have hpow : (10 : ℚ) ^ d.exponent = 10 ^ d.exponent.toNat / 10 ^ (-d.exponent).toNat := by
    conv_lhs => rw [hexp, zpow_sub₀ (by norm_num), zpow_natCast, zpow_natCast]
  rw [value, hpow, mul_div_assoc]

theorem value_one (e : Int) : (Decimal.mk 1 e).value = 10 ^ e := by
  rw [value, Nat.cast_one, one_mul]

/-- A larger decimal does not read as a smaller number. -/
theorem toMagnitude_mono {d d' : Decimal} (h : d.value ≤ d'.value) :
    d.toMagnitude ≤ d'.toMagnitude := by
  rw [value_eq, value_eq, div_le_div_iff₀ (by positivity) (by positivity)] at h
  have hnat : d.coefficient * 10 ^ d.exponent.toNat * 10 ^ (-d'.exponent).toNat
      ≤ d'.coefficient * 10 ^ d'.exponent.toNat * 10 ^ (-d.exponent).toNat := by
    exact_mod_cast h
  rw [toMagnitude_eq_nearest, toMagnitude_eq_nearest]
  apply nearest_mono (ten_pow_pos _) (ten_pow_pos _)
  rw [Nat.mul_right_comm, Nat.mul_right_comm _ (2 ^ places)]
  exact Nat.mul_le_mul_right _ hnat

end Decimal

/-! ## Numbers of digits -/

theorem Digits.length_ofDecimal_le {d : Decimal} {k : Nat} (hk : 0 < k)
    (h : d.coefficient < 10 ^ k) : (ofDecimal d).digits.length ≤ k := by
  obtain ⟨zeros, hall⟩ := exists_zeros (Nat.toDigits 10 d.coefficient)
  have hlength := congrArg List.length hall
  have hle := (Nat.length_toDigits_le_iff (by decide) hk).mpr h
  rw [List.length_append] at hlength
  rw [ofDecimal_eq]
  split
  · exact hk
  · show (Text.trimEnd (· == '0') (Nat.toDigits 10 d.coefficient)).length ≤ k
    omega

theorem length_digits_le (tie : Tie) {x : Float} (h : magnitude x < infinite) :
    (digits tie x).digits.length ≤ 19 :=
  Digits.length_ofDecimal_le (by decide)
    ((Decimal.coefficient_shortest_le tie h).trans_lt (by decide))

/-- The first digit is none of the zeros that are left out. -/
theorem Digits.le_digitsValue_ofDecimal {d : Decimal} (h : d.coefficient ≠ 0) :
    10 ^ ((ofDecimal d).digits.length - 1) ≤ digitsValue (ofDecimal d).digits := by
  obtain ⟨k, hall⟩ := exists_zeros (Nat.toDigits 10 d.coefficient)
  have hlength := congrArg List.length hall
  have hvalue := congrArg digitsValue hall
  rw [List.length_append, List.length_replicate] at hlength
  rw [digitsValue_append_zeros, digitsValue_toDigits] at hvalue
  rw [ofDecimal_eq]
  split
  · rename_i hempty
    rw [List.isEmpty_iff.mp hempty, digitsValue, Nat.ofDigitChars_nil, Nat.zero_mul] at hvalue
    exact absurd hvalue h
  · show 10 ^ ((Text.trimEnd (· == '0') (Nat.toDigits 10 d.coefficient)).length - 1)
      ≤ digitsValue (Text.trimEnd (· == '0') (Nat.toDigits 10 d.coefficient))
    generalize Text.trimEnd (· == '0') (Nat.toDigits 10 d.coefficient) = kept at hlength hvalue ⊢
    by_contra hlt
    have hshort : d.coefficient < 10 ^ (kept.length - 1 + k) := by
      rw [hvalue, Nat.pow_add]
      exact Nat.mul_lt_mul_of_pos_right (Nat.not_le.mp hlt) (Decimal.ten_pow_pos k)
    rcases Nat.eq_zero_or_pos (kept.length - 1 + k) with hzero | hpos
    · rw [hzero] at hshort
      omega
    · have hle := (Nat.length_toDigits_le_iff (by decide) hpos).mpr hshort
      have hkept : kept.length ≠ 0 := fun hnil => by
        rw [List.eq_nil_of_length_eq_zero hnil, digitsValue, Nat.ofDigitChars_nil,
          Nat.zero_mul] at hvalue
        exact h hvalue
      omega

end ColumnCalc.Number
