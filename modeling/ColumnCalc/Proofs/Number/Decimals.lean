import ColumnCalc.Number.Decimal
import ColumnCalc.Proofs.Number.Units

/-!
# Reading decimals back

All digits of a finite magnitude stand for that magnitude and read back as it; so does whatever
shorter decimal the search finds. `toMagnitude_shortest` says that nothing is lost when a number is
written with as few digits as possible. Decimals of one value read as one number, however many zeros
their coefficients end with (`toMagnitude_scale`).
-/

namespace ColumnCalc.Number

namespace Decimal

theorem toMagnitude_eq (d : Decimal) : d.toMagnitude =
    if d.coefficient = 0 then 0
    else if d.isHuge then infinite
    else if d.isTiny then 0
    else if 0 ≤ d.exponent then
      nearest (d.coefficient * 10 ^ d.exponent.natAbs * 2 ^ places) 1
    else nearest (d.coefficient * 2 ^ places) (10 ^ d.exponent.natAbs) := rfl

theorem exact_eq (m : Nat) : exact m =
    if m / 2 ^ 52 = 0 then ⟨m % 2 ^ 52 * 5 ^ places, -(places : Nat)⟩
    else if m / 2 ^ 52 ≤ places then
      ⟨(m % 2 ^ 52 + 2 ^ 52) * 5 ^ (places + 1 - m / 2 ^ 52), -(places + 1 - m / 2 ^ 52 : Nat)⟩
    else ⟨(m % 2 ^ 52 + 2 ^ 52) * 2 ^ (m / 2 ^ 52 - 1 - places), 0⟩ := rfl

theorem five_pow_pos (k : Nat) : 0 < 5 ^ k :=
  Nat.pow_pos (by decide)

/-! ## Decimals of one value -/

theorem ten_pow_pos (k : Nat) : 0 < 10 ^ k :=
  Nat.pow_pos (by decide)

theorem nearest_of_isHuge {d : Decimal} (h0 : d.coefficient ≠ 0) (h : d.isHuge = true) :
    nearest (d.coefficient * 10 ^ d.exponent.toNat * 2 ^ places) 1 = infinite := by
  have hexp : 2099 ≤ 3 * d.exponent.toNat + places := by
    have := of_decide_eq_true h
    have := places_eq
    omega
  refine nearest_eq_infinite hexp ?_
  calc 2 ^ (3 * d.exponent.toNat + places) ≤ 10 ^ d.exponent.toNat * 2 ^ places := by
        rw [Nat.pow_add, Nat.pow_mul]
        exact Nat.mul_le_mul_right _ (Nat.pow_le_pow_left (by decide) _)
    _ ≤ d.coefficient * 10 ^ d.exponent.toNat * 2 ^ places :=
        Nat.mul_le_mul_right _ (Nat.le_mul_of_pos_left _ (Nat.pos_of_ne_zero h0))

theorem nearest_of_isTiny {d : Decimal} (h : d.isTiny = true) :
    nearest (d.coefficient * 2 ^ places) (10 ^ d.exponent.natAbs) = 0 := by
  simp only [isTiny, Bool.and_eq_true, decide_eq_true_eq] at h
  apply nearest_eq_zero
  calc 2 * (d.coefficient * 2 ^ places)
      < 2 * (2 ^ (d.coefficient.log2 + 1) * 2 ^ places) :=
        Nat.mul_lt_mul_of_pos_left
          (Nat.mul_lt_mul_of_pos_right Nat.lt_log2_self (Nat.two_pow_pos _)) (by decide)
    _ = 2 ^ (1 + (d.coefficient.log2 + 1 + places)) := by
        rw [Nat.pow_add 2 1, Nat.pow_add 2 (d.coefficient.log2 + 1)]
    _ ≤ 2 ^ (3 * d.exponent.natAbs) :=
        Nat.pow_le_pow_right (by decide) (by have := places_eq; omega)
    _ ≤ 10 ^ d.exponent.natAbs := by
        rw [Nat.pow_mul]
        exact Nat.pow_le_pow_left (by decide) _

/-- The cases that are set apart round like the others. -/
theorem toMagnitude_eq_nearest (d : Decimal) : d.toMagnitude =
    nearest (d.coefficient * 10 ^ d.exponent.toNat * 2 ^ places) (10 ^ (-d.exponent).toNat) := by
  have hdown : d.exponent < 0 → d.exponent.toNat = 0 ∧ (-d.exponent).toNat = d.exponent.natAbs :=
    fun _ => by omega
  have hup : 0 ≤ d.exponent → d.exponent.toNat = d.exponent.natAbs ∧ (-d.exponent).toNat = 0 :=
    fun _ => by omega
  rw [toMagnitude_eq]
  split
  · rename_i h0
    rw [h0, Nat.zero_mul, Nat.zero_mul, nearest_eq_zero (ten_pow_pos _)]
  · rename_i h0
    split
    · rename_i hhuge
      have hexp : (-d.exponent).toNat = 0 := by
        have := of_decide_eq_true hhuge
        omega
      rw [hexp, Nat.pow_zero, nearest_of_isHuge h0 hhuge]
    · split
      · rename_i htiny
        have hneg : d.exponent < 0 := by
          simp only [isTiny, Bool.and_eq_true, decide_eq_true_eq] at htiny
          exact htiny.1
        rw [(hdown hneg).1, (hdown hneg).2, Nat.pow_zero, Nat.mul_one, nearest_of_isTiny htiny]
      · split
        · rename_i hexp
          rw [(hup hexp).1, (hup hexp).2, Nat.pow_zero]
        · rename_i hexp
          rw [(hdown (Int.not_le.mp hexp)).1, (hdown (Int.not_le.mp hexp)).2, Nat.pow_zero,
            Nat.mul_one]

/-- Zeros at the end of a coefficient may stand in the exponent instead. -/
theorem toMagnitude_scale (c k : Nat) (e : Int) :
    (Decimal.mk (c * 10 ^ k) e).toMagnitude = (Decimal.mk c (e + k)).toMagnitude := by
  have hsum : k + e.toNat + (-(e + k)).toNat = (e + k).toNat + (-e).toNat := by omega
  rw [toMagnitude_eq_nearest, toMagnitude_eq_nearest]
  refine nearest_congr (ten_pow_pos _) (ten_pow_pos _) ?_
  calc c * 10 ^ k * 10 ^ e.toNat * 2 ^ places * 10 ^ (-(e + k)).toNat
      = c * 2 ^ places * (10 ^ k * 10 ^ e.toNat * 10 ^ (-(e + k)).toNat) := by ac_rfl
    _ = c * 2 ^ places * (10 ^ (e + k).toNat * 10 ^ (-e).toNat) := by
        rw [← Nat.pow_add, ← Nat.pow_add, hsum, Nat.pow_add]
    _ = c * 10 ^ (e + k).toNat * 2 ^ places * 10 ^ (-e).toNat := by ac_rfl

/-! ## Decimals of finite numbers -/

/-- A whole number of units over a power of ten reads as that number. -/
theorem toMagnitude_fives {m c k : Nat} (h : m < infinite) (hc : 0 < c) (hk : k ≤ places)
    (hu : units m = c * 2 ^ (places - k)) :
    (Decimal.mk (c * 5 ^ k) (-(k : Int))).toMagnitude = m := by
  have h5 := five_pow_pos k
  have hne : c * 5 ^ k ≠ 0 := Nat.ne_of_gt (Nat.mul_pos hc h5)
  have habs : (-(k : Int)).natAbs = k := by omega
  have hlog : 2 * k ≤ (c * 5 ^ k).log2 := by
    rw [Nat.le_log2 hne, Nat.pow_mul]
    exact Nat.le_trans (Nat.pow_le_pow_left (by decide) k) (Nat.le_mul_of_pos_left _ hc)
  have htiny : (Decimal.mk (c * 5 ^ k) (-(k : Int))).isTiny = false := by
    have := places_eq
    simp only [isTiny, habs, Bool.and_eq_false_iff]
    exact .inr (decide_eq_false (by omega))
  have hhuge : (Decimal.mk (c * 5 ^ k) (-(k : Int))).isHuge = false :=
    decide_eq_false (by simp only; omega)
  have hten : 10 ^ k = 5 ^ k * 2 ^ k := Nat.mul_pow 5 2 k
  simp only [toMagnitude_eq, if_neg hne, hhuge, htiny, Bool.false_eq_true, if_false, habs]
  split
  · have hz : k = 0 := by omega
    subst hz
    have hn := nearest_units h (d := 1) Nat.one_pos
    rw [hu, Nat.mul_one, Nat.sub_zero] at hn
    simp only [Nat.pow_zero, Nat.mul_one]
    exact hn
  · have hpow : 2 ^ places = 2 ^ (places - k) * 2 ^ k := by
      rw [← Nat.pow_add, Nat.sub_add_cancel hk]
    have hn := nearest_units h (d := 5 ^ k * 2 ^ k) (Nat.mul_pos h5 (Nat.two_pow_pos k))
    have hmul : c * 5 ^ k * 2 ^ places = units m * (5 ^ k * 2 ^ k) := by
      rw [hu, hpow]
      ac_rfl
    rw [hmul, hten]
    exact hn

/-- A whole number that is a double reads as that double. -/
theorem toMagnitude_whole {m c : Nat} (h : m < infinite) (hc : 0 < c)
    (hu : units m = c * 2 ^ places) : (Decimal.mk c 0).toMagnitude = m := by
  have hn := nearest_units h (d := 1) Nat.one_pos
  rw [hu, Nat.mul_one] at hn
  have hne : c ≠ 0 := Nat.ne_of_gt hc
  have htiny : (Decimal.mk c 0).isTiny = false := rfl
  have hhuge : (Decimal.mk c 0).isHuge = false := rfl
  simp only [toMagnitude_eq, if_neg hne, hhuge, htiny, Bool.false_eq_true, if_false,
    Int.natAbs_zero, Nat.pow_zero, Nat.mul_one, Int.le_refl, if_true]
  exact hn

theorem toMagnitude_exact {m : Nat} (h : m < infinite) : (exact m).toMagnitude = m := by
  have hp := places_eq
  have hsig : 0 < m % 2 ^ 52 + 2 ^ 52 := by omega
  rw [exact_eq]
  split
  · rename_i he
    by_cases hf : m % 2 ^ 52 = 0
    · have h0 : m = 0 := by omega
      rw [hf, Nat.zero_mul, h0]
      rfl
    · refine toMagnitude_fives h (Nat.pos_of_ne_zero hf) (Nat.le_refl _) ?_
      simp only [units_eq, if_pos he, Nat.sub_self, Nat.pow_zero, Nat.mul_one]
  · rename_i he
    split
    · rename_i hsmall
      refine toMagnitude_fives h hsig (by omega) ?_
      have hexp : places - (places + 1 - m / 2 ^ 52) = m / 2 ^ 52 - 1 := by omega
      simp only [units_eq, if_neg he, hexp]
    · rename_i hbig
      refine toMagnitude_whole h (Nat.mul_pos hsig (Nat.two_pow_pos _)) ?_
      have hexp : m / 2 ^ 52 - 1 = m / 2 ^ 52 - 1 - places + places := by omega
      simp only [units_eq, if_neg he]
      rw [Nat.mul_assoc, ← Nat.pow_add, ← hexp]

theorem toMagnitude_of_neighbour? {tie : Tie} {m k : Nat} {d r : Decimal}
    (h : neighbour? tie m d k = some r) : r.toMagnitude = m := by
  simp only [neighbour?] at h
  generalize (if d.roundsUp tie k then (d.truncate k).succ else d.truncate k) = near at h
  generalize (if d.roundsUp tie k then d.truncate k else (d.truncate k).succ) = far at h
  by_cases hn : near.toMagnitude = m
  · rw [if_pos hn] at h
    exact Option.some.inj h ▸ hn
  · by_cases hf : far.toMagnitude = m
    · rw [if_neg hn, if_pos hf] at h
      exact Option.some.inj h ▸ hf
    · rw [if_neg hn, if_neg hf] at h
      exact nomatch h

/-- The shortest decimal reads back as the number it was made from. -/
theorem toMagnitude_shortest (tie : Tie) {m : Nat} (h : m < infinite) :
    (shortest tie m).toMagnitude = m := by
  simp only [shortest]
  cases hf : (List.range (digitCount (exact m).coefficient)).findSome? fun kept =>
      neighbour? tie m (exact m) (digitCount (exact m).coefficient - kept - 1) with
  | none => exact toMagnitude_exact h
  | some r =>
    obtain ⟨k, _, hk⟩ := List.exists_of_findSome?_eq_some hf
    exact toMagnitude_of_neighbour? hk

end Decimal

end ColumnCalc.Number
