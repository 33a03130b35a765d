import ColumnCalc.Number.Notation
import ColumnCalc.Proofs.Expr.Grammar
import Mathlib.Algebra.Group.Nat.Defs

/-!
# The texts of finite numbers are literals

Whatever decimal stands for a number, its text with or without a power of ten is digits, perhaps a
point with digits and perhaps a power: a literal up to the sign (`IsMagnitude`). The text that an
expression takes of a finite number is one of the two, with its sign. `positional_cases` and
`scientific_parts` take the texts apart; a text without a power has the value of the digits it was
made from.
-/

namespace ColumnCalc

namespace Number

open Grammar

/-- A literal without its sign. -/
def IsMagnitude (s : List Char) : Prop :=
  ∃ whole point fraction mark negative power,
    IsDigits whole ∧ IsFraction point fraction ∧ IsPower mark negative power ∧
      s = whole ++ point ++ mark

theorem IsMagnitude.exists_isLiteral {s sign : List Char} {negative : Bool} (h : IsMagnitude s)
    (hsign : IsSign sign negative) : ∃ l, IsLiteral (sign ++ s) l := by
  obtain ⟨whole, point, fraction, mark, powerNegative, power, hwhole, hpoint, hmark, rfl⟩ := h
  have hl := IsLiteral.mk hsign hwhole hpoint hmark
  simp only [List.append_assoc] at hl ⊢
  exact ⟨_, hl⟩

/-! ## Digits -/

theorem isDigits_iff {ds : List Char} : IsDigits ds ↔ ds ≠ [] ∧ ∀ c ∈ ds, c.isDigit = true := by
  cases ds with
  | nil => simp [IsDigits, IsRun]
  | cons c r => simp [IsDigits, IsRun]

theorem isDigits_toDigits (n : Nat) : IsDigits (Nat.toDigits 10 n) :=
  isDigits_iff.mpr ⟨Nat.toDigits_ne_nil, fun _ hc =>
    Nat.isDigit_of_mem_toDigits (by decide) (by decide) hc⟩

theorem isBlank_of_mem_digits {ds : List Char} (h : IsDigits ds) :
    ∀ c ∈ ds, Text.isBlank c = false := fun c hc =>
  isBlank_of_isIdentPart (isIdentPart_of_isDigit ((isDigits_iff.mp h).2 c hc))

theorem isDigits_zero : IsDigits ['0'] :=
  isDigits_iff.mpr ⟨List.cons_ne_nil _ _, List.all_eq_true.mp (by decide)⟩

theorem isDigits_append {a b : List Char} (ha : ∀ c ∈ a, c.isDigit = true)
    (hb : ∀ c ∈ b, c.isDigit = true) (hne : a ++ b ≠ []) : IsDigits (a ++ b) :=
  isDigits_iff.mpr ⟨hne, fun c hc => (List.mem_append.mp hc).elim (ha c) (hb c)⟩

theorem isDigit_of_mem_zeros {k : Nat} : ∀ c ∈ List.replicate k '0', c.isDigit = true := by
  rintro c hc
  rw [(List.mem_replicate.mp hc).2]
  rfl

@[simp]
theorem digitsValue_toDigits (n : Nat) : digitsValue (Nat.toDigits 10 n) = n :=
  Nat.ofDigitChars_ten_toDigits

theorem digitsValue_append (a b : List Char) :
    digitsValue (a ++ b) = digitsValue a * 10 ^ b.length + digitsValue b := by
  simp only [digitsValue]
  rw [Nat.ofDigitChars_append, Nat.ofDigitChars_eq_ofDigitChars_zero, Nat.mul_comm]

@[simp]
theorem digitsValue_zeros (k : Nat) : digitsValue (List.replicate k '0') = 0 := by
  rw [digitsValue, Nat.ofDigitChars_replicate_zero, Nat.mul_zero]

@[simp]
theorem digitsValue_append_zeros (ds : List Char) (k : Nat) :
    digitsValue (ds ++ List.replicate k '0') = digitsValue ds * 10 ^ k := by
  rw [digitsValue_append, digitsValue_zeros, List.length_replicate, Nat.add_zero]

@[simp]
theorem digitsValue_one_zeros (k : Nat) :
    digitsValue (['1'] ++ List.replicate k '0') = 10 ^ k :=
  (digitsValue_append_zeros ['1'] k).trans (Nat.one_mul _)

@[simp]
theorem digitsValue_zeros_append (k : Nat) (ds : List Char) :
    digitsValue (List.replicate k '0' ++ ds) = digitsValue ds := by
  rw [digitsValue_append, digitsValue_zeros, Nat.zero_mul, Nat.zero_add]

namespace Digits

theorem isDigits_ofDecimal (d : Decimal) : IsDigits (ofDecimal d).digits := by
  simp only [ofDecimal]
  split
  · exact isDigits_zero
  · rename_i hkept
    refine isDigits_iff.mpr ⟨by simpa using hkept, fun c hc => ?_⟩
    have hsub := (List.dropWhile_sublist (· == '0')).mem (List.mem_reverse.mp hc)
    exact (isDigits_iff.mp (isDigits_toDigits _)).2 c (List.mem_reverse.mp hsub)

variable {d : Digits}

/-- The place of the point decides on which side of it the text has zeros of its own. -/
theorem positional_cases (h : IsDigits d.digits) :
    (∃ k : Nat, d.place = d.digits.length + k ∧ IsDigits (d.digits ++ List.replicate k '0') ∧
      d.positional = d.digits ++ List.replicate k '0') ∨
    ∃ whole fraction, IsDigits whole ∧ IsDigits fraction ∧
      d.positional = whole ++ '.' :: fraction ∧
      digitsValue (whole ++ fraction) = digitsValue d.digits ∧
      d.place - d.digits.length = -fraction.length := by
  obtain ⟨hne, hall⟩ := isDigits_iff.mp h
  have hlen : 0 < d.digits.length := List.length_pos_iff.mpr hne
  unfold positional
  split
  · refine .inr ⟨['0'], List.replicate (-d.place).toNat '0' ++ d.digits, isDigits_zero,
      isDigits_append isDigit_of_mem_zeros hall (by simp [hne]), by simp, ?_, ?_⟩
    · exact (digitsValue_zeros_append 1 _).trans (digitsValue_zeros_append _ _)
    · rw [List.length_append, List.length_replicate]
      omega
  · split
    · exact .inl ⟨d.place.toNat - d.digits.length, by omega,
        isDigits_append hall isDigit_of_mem_zeros (by simp [hne]), rfl⟩
    · have htake : d.digits.take d.place.toNat ≠ [] := List.ne_nil_of_length_pos (by
        rw [List.length_take]
        omega)
      have hdrop : d.digits.drop d.place.toNat ≠ [] := List.ne_nil_of_length_pos (by
        rw [List.length_drop]
        omega)
      refine .inr ⟨_, _, isDigits_iff.mpr ⟨htake, fun c hc => hall c (List.mem_of_mem_take hc)⟩,
        isDigits_iff.mpr ⟨hdrop, fun c hc => hall c (List.mem_of_mem_drop hc)⟩,
        List.append_assoc .., by rw [List.take_append_drop], ?_⟩
      rw [List.length_drop]
      omega

theorem isMagnitude_positional (h : IsDigits d.digits) : IsMagnitude d.positional := by
  obtain ⟨k, -, hwhole, htext⟩ | ⟨whole, fraction, hwhole, hfraction, htext, -⟩ :=
    positional_cases h
  · exact ⟨_, _, _, _, _, _, hwhole, .absent, .absent, by simp [htext]⟩
  · exact ⟨_, _, _, _, _, _, hwhole, .present hfraction, .absent, by simp [htext]⟩

/-- The first digit, the others behind a point, and a power of ten. -/
theorem scientific_parts (h : IsDigits d.digits) (plus : List Char) :
    ∃ c r point, d.digits = c :: r ∧ IsDigits [c] ∧ IsFraction point r ∧
      d.scientific plus = [c] ++ point ++ 'e' :: ((if d.place - 1 < 0 then ['-'] else plus)
        ++ Nat.toDigits 10 (d.place - 1).natAbs) := by
  obtain ⟨c, r, hd, hc⟩ := isRun_head h
  have hwhole : IsDigits [c] :=
    isDigits_iff.mpr ⟨List.cons_ne_nil _ _, List.forall_mem_singleton.mpr hc⟩
  have hrest : ∀ x ∈ r, x.isDigit = true := fun x hx =>
    (isDigits_iff.mp h).2 x (by rw [hd]; exact .tail _ hx)
  cases r with
  | nil => exact ⟨c, [], [], hd, hwhole, .absent, by simp [scientific, hd]⟩
  | cons x r =>
    have hfraction : IsDigits (x :: r) := isDigits_iff.mpr ⟨List.cons_ne_nil _ _, hrest⟩
    exact ⟨c, x :: r, _, hd, hwhole, .present hfraction, by simp [scientific, hd]⟩

/-- The text in JSON has a plus sign in front of a power that is not negative. -/
theorem isSign_power {plus : List Char} (hplus : IsSign plus false) (power : Int) :
    IsSign (if power < 0 then ['-'] else plus) (decide (power < 0)) := by
  by_cases hnegative : power < 0
  · rw [if_pos hnegative, decide_eq_true hnegative]
    exact .minus
  · rw [if_neg hnegative, decide_eq_false hnegative]
    exact hplus

theorem isMagnitude_scientific {plus : List Char} (hplus : IsSign plus false)
    (h : IsDigits d.digits) : IsMagnitude (d.scientific plus) := by
  obtain ⟨c, r, point, -, hwhole, hpoint, htext⟩ := scientific_parts h plus
  have hpower := isDigits_toDigits (d.place - 1).natAbs
  exact ⟨_, _, _, _, _, _, hwhole, hpoint, .present (isSign_power hplus _) hpower, htext⟩

end Digits

/-! ## Numbers -/

theorem isDigits_digits (tie : Tie) (x : Float) : IsDigits (digits tie x).digits :=
  Digits.isDigits_ofDecimal _

theorem exists_isLiteral_signed {x : Float} {text : List Char} (h : IsMagnitude text) :
    ∃ l, IsLiteral (signed x text) l := by
  unfold signed
  split
  · exact h.exists_isLiteral .minus
  · exact h.exists_isLiteral .absent

theorem exists_isLiteral_literal {x : Float} (hnan : x.isNaN = false) (hinf : x.isInf = false) :
    ∃ l, IsLiteral (literal x) l := by
  have hdigits := isDigits_digits .up x
  simp only [literal, hnan, hinf, Bool.false_eq_true, if_false]
  split
  · exact exists_isLiteral_signed (Digits.isMagnitude_scientific .absent hdigits)
  · exact exists_isLiteral_signed (Digits.isMagnitude_positional hdigits)

end Number

end ColumnCalc
