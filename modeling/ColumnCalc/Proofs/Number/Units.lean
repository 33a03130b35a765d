import ColumnCalc.Number.Decimal
import Mathlib.Algebra.Group.Nat.Defs

/-!
# Rounding to representable numbers

A finite magnitude is a whole number of units, and rounding gives back every such number
(`nearest_units`), however the fraction that stands for it is written.
-/

namespace ColumnCalc.Number

theorem infinite_eq : infinite = 0x7ff * 2 ^ 52 := rfl

theorem units_eq (m : Nat) : units m =
    if m / 2 ^ 52 = 0 then m % 2 ^ 52 else (m % 2 ^ 52 + 2 ^ 52) * 2 ^ (m / 2 ^ 52 - 1) := rfl

theorem nearest_eq (num den : Nat) : nearest num den =
    min (((num / den).log2 - 52) * 2 ^ 52 + roundDiv num (den * 2 ^ ((num / den).log2 - 52)))
      infinite := rfl

theorem roundDiv_mul_right {n d : Nat} (hd : 0 < d) : roundDiv (n * d) d = n := by
  simp [roundDiv, Nat.mul_div_cancel _ hd, hd]

theorem roundDiv_mul {k : Nat} (hk : 0 < k) (num den : Nat) :
    roundDiv (num * k) (den * k) = roundDiv num den := by
  have hscale : ∀ a b : Nat, 2 * (a * k) < b * k ↔ 2 * a < b := fun a b => by
    rw [← Nat.mul_assoc, Nat.mul_lt_mul_right hk]
  have hscale' : ∀ a b : Nat, b * k < 2 * (a * k) ↔ b < 2 * a := fun a b => by
    rw [← Nat.mul_assoc, Nat.mul_lt_mul_right hk]
  simp only [roundDiv, Nat.mul_div_mul_right _ _ hk, Nat.mul_mod_mul_right, hscale, hscale']

/-- A fraction is rounded to the same number in whatever terms it is written. -/
theorem nearest_congr {num den num' den' : Nat} (hden : 0 < den) (hden' : 0 < den')
    (h : num * den' = num' * den) : nearest num den = nearest num' den' := by
  have hmul : ∀ {k : Nat}, 0 < k → ∀ n d, nearest (n * k) (d * k) = nearest n d := by
    intro k hk n d
    rw [nearest_eq, nearest_eq, Nat.mul_div_mul_right _ _ hk, Nat.mul_right_comm,
      roundDiv_mul hk]
  calc nearest num den = nearest (num * den') (den * den') := (hmul hden' _ _).symm
    _ = nearest (num' * den) (den' * den) := by rw [h, Nat.mul_comm den]
    _ = nearest num' den' := hmul hden _ _

/-- Half a unit rounds to none. -/
theorem nearest_eq_zero {num den : Nat} (h : 2 * num < den) : nearest num den = 0 := by
  have hlt : num < den := by omega
  simp [nearest_eq, roundDiv, Nat.div_eq_of_lt hlt, Nat.mod_eq_of_lt hlt, h]

theorem nearest_eq_infinite {num k : Nat} (hk : 2099 ≤ k) (h : 2 ^ k ≤ num) :
    nearest num 1 = infinite := by
  have hne : num ≠ 0 := by
    have := Nat.two_pow_pos k
    omega
  have hlog := (Nat.le_log2 hne).2 h
  have hscale : 0x7ff * 2 ^ 52 ≤ (num.log2 - 52) * 2 ^ 52 := Nat.mul_le_mul_right _ (by omega)
  rw [nearest_eq, Nat.div_one, infinite_eq]
  omega

theorem log2_eq {n k : Nat} (lo : 2 ^ k ≤ n) (hi : n < 2 ^ (k + 1)) : n.log2 = k := by
  have h0 : n ≠ 0 := by have := Nat.two_pow_pos k; omega
  have h1 := (Nat.le_log2 h0).2 lo
  have h2 := (Nat.log2_lt h0).2 hi
  omega

/-- Rounding gives back each representable number. -/
theorem nearest_units {m : Nat} (h : m < infinite) {d : Nat} (hd : 0 < d) :
    nearest (units m * d) d = m := by
  have hm : m = 2 ^ 52 * (m / 2 ^ 52) + m % 2 ^ 52 := (Nat.div_add_mod _ _).symm
  have hf : m % 2 ^ 52 < 2 ^ 52 := Nat.mod_lt _ (by decide)
  rw [nearest_eq, Nat.mul_div_cancel _ hd]
  by_cases he : m / 2 ^ 52 = 0
  · have hu : units m = m % 2 ^ 52 := by rw [units_eq, if_pos he]
    have hl : (units m).log2 - 52 = 0 := by
      by_cases h0 : units m = 0
      · simp [h0]
      · have := (Nat.log2_lt h0).2 (hu ▸ hf)
        omega
    simp only [hl, Nat.pow_zero, Nat.mul_one, roundDiv_mul_right hd]
    omega
  · have hu : units m = (m % 2 ^ 52 + 2 ^ 52) * 2 ^ (m / 2 ^ 52 - 1) := by
      rw [units_eq, if_neg he]
    have hl : (units m).log2 = 52 + (m / 2 ^ 52 - 1) := by
      apply log2_eq
      · rw [hu, Nat.pow_add]
        exact Nat.mul_le_mul_right _ (Nat.le_add_left ..)
      · rw [hu, Nat.add_right_comm, Nat.pow_add]
        exact Nat.mul_lt_mul_of_pos_right (by omega) (Nat.two_pow_pos _)
    have hs : (units m).log2 - 52 = m / 2 ^ 52 - 1 := by omega
    have hr : roundDiv (units m * d) (d * 2 ^ (m / 2 ^ 52 - 1)) = m % 2 ^ 52 + 2 ^ 52 := by
      rw [hu, Nat.mul_assoc, Nat.mul_comm _ d]
      exact roundDiv_mul_right (Nat.mul_pos hd (Nat.two_pow_pos _))
    simp only [hs, hr]
    rw [infinite_eq] at h ⊢
    omega

end ColumnCalc.Number
