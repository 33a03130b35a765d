import ColumnCalc.Expr.Basic
import ColumnCalc.Expr.Scan

/-!
# Classes of characters that exclude each other

No blank belongs to a name, so a run of either ends where the other one begins. A separator is a
character that ends every name and every number: blanks, operators, parentheses and `=` are
separators.
-/

namespace ColumnCalc

namespace Text

/-- All characters of a class. -/
def CodeRanges.chars (ranges : CodeRanges) : List Char :=
  ranges.flatMap fun range => (List.range' range.1 (range.2 + 1 - range.1)).map Char.ofNat

theorem CodeRanges.mem_chars {ranges : CodeRanges} {c : Char} (h : ranges.has c = true) :
    c ∈ ranges.chars := by
  obtain ⟨range, hr, lo, hi⟩ := has_iff.mp h
  refine List.mem_flatMap.mpr ⟨range, hr, List.mem_map.mpr ⟨c.toNat, ?_, Char.ofNat_toNat c⟩⟩
  rw [List.mem_range'_1]
  omega

theorem isColumnStart_blankRanges :
    blankRanges.chars.all (fun c => !isColumnStart c) = true := by
  decide +kernel

theorem isColumnStart_of_isBlank {c : Char} (h : isBlank c = true) : isColumnStart c = false := by
  simpa using List.all_eq_true.mp isColumnStart_blankRanges c (CodeRanges.mem_chars h)

end Text

open Text

theorem isColumnStart_of_isIdentPart {c : Char} (h : isIdentPart c = true) :
    isColumnStart c = true := by
  simp only [isIdentPart, Bool.or_eq_true] at h
  simp only [isColumnStart, Bool.or_eq_true]
  exact .inl (.inl h)

theorem isIdentPart_of_isIdentStart {c : Char} (h : isIdentStart c = true) :
    isIdentPart c = true := by
  simp only [isIdentStart, isIdentPart, isLetterOrNumber, Bool.or_eq_true] at h ⊢
  exact h.imp_left .inl

theorem isIdentPart_of_isDigit {c : Char} (h : c.isDigit = true) : isIdentPart c = true := by
  have hlt : c.toNat < 0x80 := by
    simp only [Char.isDigit, Bool.and_eq_true, decide_eq_true_eq] at h
    have h9 : c.toNat ≤ 57 := h.2
    omega
  simp [isIdentPart, isLetterOrNumber, isNumber_ascii hlt, h]

theorem isIdentStart_of_isDigit {c : Char} (h : c.isDigit = true) : isIdentStart c = false := by
  let digits : CodeRanges := [(0x30, 0x39)]
  have hall : digits.chars.all (fun c => !isIdentStart c) = true := by decide
  have hc : digits.has c = true := by
    simp only [Char.isDigit, Bool.and_eq_true, decide_eq_true_eq] at h
    exact CodeRanges.has_iff.mpr ⟨_, .head _, h.1, h.2⟩
  simpa using List.all_eq_true.mp hall c (CodeRanges.mem_chars hc)

theorem isBlank_of_isIdentPart {c : Char} (h : isIdentPart c = true) : isBlank c = false := by
  refine Bool.eq_false_iff.mpr fun hb => ?_
  exact absurd (isColumnStart_of_isBlank hb) (by simp [isColumnStart_of_isIdentPart h])

theorem isBlank_of_mem_operators {level : Level} {c : Char} (h : c ∈ level.operators) :
    isBlank c = false := by
  have hall : level.operators.all (fun c => !isBlank c) = true := by
    cases level <;> decide
  simpa using List.all_eq_true.mp hall c h

/-- A character that no name and no number goes on with. -/
def IsSeparator (c : Char) : Prop :=
  isIdentPart c = false ∧ c ≠ '.'

instance (c : Char) : Decidable (IsSeparator c) :=
  inferInstanceAs (Decidable (_ ∧ _))

theorem IsSeparator.of_isBlank {c : Char} (h : isBlank c = true) : IsSeparator c := by
  refine ⟨Bool.eq_false_iff.mpr fun hi => ?_, ?_⟩
  · rw [isBlank_of_isIdentPart hi] at h
    exact absurd h (by decide)
  · rintro rfl
    exact absurd h (by decide)

theorem IsSeparator.of_mem_operators {level : Level} {c : Char} (h : c ∈ level.operators) :
    IsSeparator c := by
  have hall : level.operators.all (fun c => decide (IsSeparator c)) = true := by
    cases level <;> decide
  exact of_decide_eq_true (List.all_eq_true.mp hall c h)

end ColumnCalc
