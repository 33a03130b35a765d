import Mathlib

/-!
# The order of doubles

All doubles that are numbers stand in one line: `rank` says where, first by the sign and the kind,
then by the exponent, then by the fraction. The two zeros stand in the same place. So the
comparisons of numbers have the laws of a linear order, which they lack as soon as `nan` is among
them.
-/

namespace ColumnCalc.Number

open Float.Model Float.Model.UnpackedFloat

/-- The place of a number in the order of numbers. -/
def place : UnpackedFloat → ℤ ×ₗ ℤ ×ₗ ℤ
  | infinity .negative => toLex (-2, toLex (0, 0))
  | finite .negative fraction exponent _ => toLex (-1, toLex (-exponent, -fraction))
  | zero _ => toLex (0, toLex (0, 0))
  | finite .positive fraction exponent _ => toLex (1, toLex (exponent, fraction))
  | infinity .positive => toLex (2, toLex (0, 0))
  | notANumber => toLex (0, toLex (0, 0))

def rank (x : Float) : ℤ ×ₗ ℤ ×ₗ ℤ :=
  place x.toModel.unpack

theorem compare_neg (a b : ℤ) : compare (-a) (-b) = (compare a b).swap := by
  rw [← Std.OrientedCmp.eq_swap]
  simp only [compare, compareOfLessAndEq, neg_lt_neg_iff, neg_inj, eq_comm]

theorem compare_natCast (a b : ℕ) : compare (a : ℤ) b = compare a b := by
  simp only [compare, compareOfLessAndEq, Nat.cast_lt, Nat.cast_inj]

theorem compare_finite_positive {m m' : ℕ} {e e' : ℤ} (hm : 0 < m) (hm' : 0 < m') :
    (finite .positive m e hm).compare (finite .positive m' e' hm')
      = some (compare (place (finite .positive m e hm)) (place (finite .positive m' e' hm'))) := by
  have hplace : compare (place (finite .positive m e hm)) (place (finite .positive m' e' hm'))
      = (compare e e').then (compare (m : ℤ) m') := rfl
  rw [hplace, compare_natCast]
  rfl

theorem compare_finite_negative {m m' : ℕ} {e e' : ℤ} (hm : 0 < m) (hm' : 0 < m') :
    (finite .negative m e hm).compare (finite .negative m' e' hm')
      = some (compare (place (finite .negative m e hm)) (place (finite .negative m' e' hm'))) := by
  have hplace : compare (place (finite .negative m e hm)) (place (finite .negative m' e' hm'))
      = (compare (-e) (-e')).then (compare (-m : ℤ) (-m')) := rfl
  rw [hplace, compare_neg, compare_neg, compare_natCast, ← Ordering.swap_then]
  rfl

/-- Numbers compare as their places do. -/
theorem compare_eq_compare_place {a b : UnpackedFloat} (ha : a.isNaN = false)
    (hb : b.isNaN = false) : a.compare b = some (compare (place a) (place b)) := by
  cases a with
  | notANumber => cases ha
  | infinity s =>
    cases b with
    | notANumber => cases hb
    | infinity t => cases s <;> cases t <;> rfl
    | zero t => cases s <;> rfl
    | finite t => cases s <;> cases t <;> rfl
  | zero s =>
    cases b with
    | notANumber => cases hb
    | infinity t => cases t <;> rfl
    | zero t => rfl
    | finite t => cases t <;> rfl
  | finite s m e hm =>
    cases b with
    | notANumber => cases hb
    | infinity t => cases s <;> cases t <;> rfl
    | zero t => cases s <;> rfl
    | finite t m' e' hm' =>
      cases s with
      | negative =>
        cases t with
        | negative => exact compare_finite_negative hm hm'
        | positive => rfl
      | positive =>
        cases t with
        | negative => rfl
        | positive => exact compare_finite_positive hm hm'

section
variable {x y z : Float}

theorem lt_iff_rank_lt (hx : x.isNaN = false) (hy : y.isNaN = false) :
    x < y ↔ rank x < rank y := by
  have hcompare := compare_eq_compare_place hx hy
  calc x < y ↔ x.toModel < y.toModel := decide_eq_true_iff
    _ ↔ x.toModel.unpack.compare y.toModel.unpack = some .lt := beq_iff_eq
    _ ↔ rank x < rank y := by rw [hcompare, Option.some.injEq, compare_lt_iff_lt, rank, rank]

theorem le_iff_rank_le (hx : x.isNaN = false) (hy : y.isNaN = false) :
    x ≤ y ↔ rank x ≤ rank y := by
  have hcompare := compare_eq_compare_place hx hy
  calc x ≤ y ↔ x.toModel ≤ y.toModel := decide_eq_true_iff
    _ ↔ (x.toModel.unpack.compare y.toModel.unpack).any Ordering.isLE = true := .rfl
    _ ↔ rank x ≤ rank y := by
      rw [hcompare, Option.any_some, Ordering.isLE_iff_ne_gt]
      exact compare_le_iff_le

theorem le_self (hx : x.isNaN = false) : x ≤ x :=
  (le_iff_rank_le hx hx).mpr le_rfl

theorem le_trans_of_numbers (hx : x.isNaN = false) (hy : y.isNaN = false) (hz : z.isNaN = false)
    (hxy : x ≤ y) (hyz : y ≤ z) : x ≤ z := by
  rw [le_iff_rank_le hx hy] at hxy
  rw [le_iff_rank_le hy hz] at hyz
  exact (le_iff_rank_le hx hz).mpr (hxy.trans hyz)

theorem le_of_lt_of_numbers (hx : x.isNaN = false) (hy : y.isNaN = false) (h : x < y) : x ≤ y :=
  (le_iff_rank_le hx hy).mpr ((lt_iff_rank_lt hx hy).mp h).le

theorem le_of_not_lt_of_numbers (hx : x.isNaN = false) (hy : y.isNaN = false) (h : ¬ x < y) :
    y ≤ x := by
  rw [lt_iff_rank_lt hx hy, not_lt] at h
  exact (le_iff_rank_le hy hx).mpr h

end

end ColumnCalc.Number
