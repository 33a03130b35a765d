import ColumnCalc.Csv.Table
import ColumnCalc.Proofs.Number.Bits
import ColumnCalc.Proofs.Number.Decimals
import ColumnCalc.Proofs.Number.Spelling
import ColumnCalc.Proofs.Text.Trimming

/-!
# Numbers read back from their texts

The digits of a decimal leave out the zeros at its end, and a text without a power of ten puts zeros
on either side of them, so it seldom spells the decimal it came from; it spells one of the same
value. With the shortest decimal this gives back every finite number, from its text without a power
(`read?_finitePlain`) and from the one in JSON (`read?_json`); with the words for the others every
number comes back from its cell (`read?_cell`).
-/

namespace ColumnCalc

namespace Number

open Grammar

/-! ## Decimals -/

theorem exists_zeros (ds : List Char) :
    ∃ k, ds = Text.trimEnd (· == '0') ds ++ List.replicate k '0' := by
  obtain ⟨zeros, hzeros, hds⟩ := Text.exists_trimEnd (· == '0') ds
  have hrep : zeros = List.replicate zeros.length '0' :=
    List.eq_replicate_of_mem fun c hc => by simpa using hzeros c hc
  exact ⟨zeros.length, hrep ▸ hds⟩

namespace Digits

/-- The number that digits stand for. -/
def decimal (d : Digits) : Decimal :=
  ⟨digitsValue d.digits, d.place - d.digits.length⟩

theorem ofDecimal_eq (d : Decimal) : ofDecimal d =
    if (Text.trimEnd (· == '0') (Nat.toDigits 10 d.coefficient)).isEmpty then ⟨['0'], 1⟩
    else ⟨Text.trimEnd (· == '0') (Nat.toDigits 10 d.coefficient),
      (Nat.toDigits 10 d.coefficient).length + d.exponent⟩ := rfl

/-- Leaving out the zeros at the end of a decimal changes no value. -/
@[simp]
theorem toMagnitude_ofDecimal (d : Decimal) :
    (ofDecimal d).decimal.toMagnitude = d.toMagnitude := by
  obtain ⟨k, hall⟩ := exists_zeros (Nat.toDigits 10 d.coefficient)
  have hvalue := congrArg digitsValue hall
  rw [digitsValue_append_zeros, digitsValue_toDigits] at hvalue
  have hlength := congrArg List.length hall
  rw [List.length_append, List.length_replicate] at hlength
  rw [ofDecimal_eq]
  split
  · rename_i hempty
    have hzero : d.coefficient = 0 := by
      rw [hvalue, List.isEmpty_iff.mp hempty, digitsValue, Nat.ofDigitChars_nil, Nat.zero_mul]
    rw [Decimal.toMagnitude_eq d, if_pos hzero]
    rfl
  · have hplace : ((Nat.toDigits 10 d.coefficient).length + d.exponent : Int)
        - (Text.trimEnd (· == '0') (Nat.toDigits 10 d.coefficient)).length = d.exponent + k := by
      omega
    simp only [decimal]
    rw [hplace, ← Decimal.toMagnitude_scale, ← hvalue]

end Digits

/-- What stands behind the last digits of a numeral begins with no digit and no point. -/
theorem boundary_of_readPower? {mark : List Char} {power : Int} (h : readPower? mark = some power) :
    mark.takeWhile Char.isDigit = [] ∧ mark.dropWhile Char.isDigit = mark ∧
      mark.head? ≠ some '.' := by
  cases mark with
  | nil => exact ⟨rfl, rfl, nofun⟩
  | cons c r =>
    simp only [readPower?] at h
    split at h
    · rename_i hc
      simp only [Bool.or_eq_true, decide_eq_true_eq] at hc
      rcases hc with rfl | rfl
      · exact ⟨rfl, rfl, by simp⟩
      · exact ⟨rfl, rfl, by simp⟩
    · cases h

theorem readDecimal?_append {whole point fraction mark : List Char} {power : Int}
    (hwhole : IsDigits whole) (hpoint : IsFraction point fraction)
    (hpower : readPower? mark = some power) : readDecimal? (whole ++ point ++ mark)
      = some ⟨digitsValue (whole ++ fraction), power - fraction.length⟩ := by
  obtain ⟨hne, hall⟩ := isDigits_iff.mp hwhole
  obtain ⟨htake, hdrop, hhead⟩ := boundary_of_readPower? hpower
  unfold readDecimal?
  rw [List.append_assoc, List.takeWhile_append_of_pos hall, List.dropWhile_append_of_pos hall]
  cases hpoint with
  | absent =>
    rw [List.nil_append, htake, hdrop, List.append_nil]
    dsimp only
    split
    · exact absurd rfl hhead
    · simp [hne, hpower]
  | present hfraction =>
    obtain ⟨-, hall'⟩ := isDigits_iff.mp hfraction
    have htake' : (fraction ++ mark).takeWhile Char.isDigit = fraction := by
      rw [List.takeWhile_append_of_pos hall', htake, List.append_nil]
    have hdrop' : (fraction ++ mark).dropWhile Char.isDigit = mark := by
      rw [List.dropWhile_append_of_pos hall', hdrop]
    simp [htake', hdrop', hne, hpower]

theorem readDecimal?_digits {whole : List Char} (h : IsDigits whole) :
    readDecimal? whole = some ⟨digitsValue whole, 0⟩ := by
  have hempty : readPower? [] = some 0 := rfl
  simpa using readDecimal?_append h .absent hempty

theorem readDecimal?_fraction {whole fraction : List Char} (h : IsDigits whole)
    (hfraction : IsDigits fraction) : readDecimal? (whole ++ '.' :: fraction)
      = some ⟨digitsValue (whole ++ fraction), -fraction.length⟩ := by
  have hempty : readPower? [] = some 0 := rfl
  simpa using readDecimal?_append h (.present hfraction) hempty

theorem readPower?_signed (power : Int) :
    readPower? ('e' :: ((if power < 0 then ['-'] else ['+']) ++ Nat.toDigits 10 power.natAbs))
      = some power := by
  obtain ⟨hne, hall⟩ := isDigits_iff.mp (isDigits_toDigits power.natAbs)
  have hvalue := digitsValue_toDigits power.natAbs
  have hall' : (Nat.toDigits 10 power.natAbs).all Char.isDigit = true := List.all_eq_true.mpr hall
  by_cases hnegative : power < 0
  · simp [readPower?, readInt?, hnegative, hne, hall', hvalue, -Nat.cast_natAbs]
    omega
  · simp [readPower?, readInt?, hnegative, hne, hall', hvalue, -Nat.cast_natAbs]
    omega

theorem readDecimal?_scientific {d : Digits} (h : IsDigits d.digits) :
    readDecimal? (d.scientific ['+']) = some d.decimal := by
  obtain ⟨c, r, point, hd, hwhole, hpoint, htext⟩ := Digits.scientific_parts h ['+']
  have hplace : d.place - 1 - r.length = d.place - d.digits.length := by
    rw [hd, List.length_cons]
    omega
  rw [htext, readDecimal?_append hwhole hpoint (readPower?_signed _), hplace,
    List.singleton_append, ← hd, Digits.decimal]

/-- The zeros of a text without a power stand for the place of the point. -/
theorem exists_readDecimal?_positional {d : Digits} (h : IsDigits d.digits) :
    ∃ r, readDecimal? d.positional = some r ∧ r.toMagnitude = d.decimal.toMagnitude := by
  obtain ⟨k, hplace, hwhole, htext⟩ | ⟨whole, fraction, hwhole, hfraction, htext, hvalue, hplace⟩ :=
    Digits.positional_cases h
  · refine ⟨_, htext ▸ readDecimal?_digits hwhole, ?_⟩
    have hzero : (0 : Int) + k = d.place - d.digits.length := by omega
    rw [htext, digitsValue_append_zeros, Decimal.toMagnitude_scale, hzero]
    rfl
  · refine ⟨_, htext ▸ readDecimal?_fraction hwhole hfraction, ?_⟩
    rw [hvalue, ← hplace]
    rfl

/-! ## Signs and words -/

/-- The number that a text without its sign spells. -/
def readUnsigned? (negative : Bool) (body : List Char) : Option Float :=
  let word := Text.lower (.ofList body)
  if word = "inf" || word = "infinity" then some (ofMagnitude negative infinite)
  else if word = "nan" then some (0.0 / 0.0)
  else (readDecimal? body).map fun d => ofMagnitude negative d.toMagnitude

theorem read?_signed {x : Float} {c : Char} {r : List Char} (hminus : c ≠ '-') (hplus : c ≠ '+') :
    read? (signed x (c :: r)) = readUnsigned? (isNegative x) (c :: r) := by
  unfold signed
  cases isNegative x with
  | true => rfl
  | false =>
    simp only [Bool.false_eq_true, if_false, read?]
    split
    · rename_i heq
      exact absurd (List.cons.inj heq).1 hminus
    · rename_i heq
      exact absurd (List.cons.inj heq).1 hplus
    · rfl

theorem lower_ne_of_isDigit {c d : Char} {r : List Char} (hc : c.isDigit = true)
    (hd : d.isDigit = false) (word : List Char) :
    Text.lower (.ofList (c :: r)) ≠ .ofList (d :: word) := by
  intro heq
  have hchars := String.ofList_injective heq
  rw [String.toList_ofList, List.map_cons] at hchars
  have hlower : c.toLower = c := by grind [Char.toLower, Char.isDigit]
  rw [← (List.cons.inj hchars).1, hlower, hc] at hd
  cases hd

/-- A text that begins with a digit is none of the words. -/
theorem readUnsigned?_digit {negative : Bool} {c : Char} {r : List Char} (hc : c.isDigit = true) :
    readUnsigned? negative (c :: r)
      = (readDecimal? (c :: r)).map fun d => ofMagnitude negative d.toMagnitude := by
  have hi : 'i'.isDigit = false := rfl
  have hn : 'n'.isDigit = false := rfl
  have hinf : Text.lower (.ofList (c :: r)) ≠ "inf" := lower_ne_of_isDigit hc hi ['n', 'f']
  have hinfinity : Text.lower (.ofList (c :: r)) ≠ "infinity" :=
    lower_ne_of_isDigit hc hi ['n', 'f', 'i', 'n', 'i', 't', 'y']
  have hnan : Text.lower (.ofList (c :: r)) ≠ "nan" := lower_ne_of_isDigit hc hn ['a', 'n']
  simp only [readUnsigned?, hinf, hinfinity, hnan, decide_false, Bool.or_self,
    Bool.false_eq_true, if_false]

/-! ## Numbers -/

/-- The digits of a finite number have its magnitude, whichever of two near decimals they are. -/
theorem toMagnitude_digits (tie : Tie) {x : Float} (hnan : x.isNaN = false)
    (hinf : x.isInf = false) : (digits tie x).decimal.toMagnitude = magnitude x := by
  rw [digits, Digits.toMagnitude_ofDecimal,
    Decimal.toMagnitude_shortest _ (magnitude_lt_infinite hnan hinf)]

/-- A decimal with the magnitude of a number, behind its sign, is read as the number. -/
theorem read?_signed_of_isMagnitude {x : Float} {body : List Char} {d : Decimal}
    (h : IsMagnitude body) (hread : readDecimal? body = some d)
    (hvalue : d.toMagnitude = magnitude x) : read? (signed x body) = some x := by
  obtain ⟨_, _, _, _, _, _, hwhole, -, -, htext⟩ := h
  obtain ⟨c, r, rfl, hc⟩ := isRun_head hwhole
  rw [List.cons_append, List.cons_append] at htext
  subst htext
  have hminus : c ≠ '-' := by
    rintro rfl
    cases hc
  have hplus : c ≠ '+' := by
    rintro rfl
    cases hc
  rw [read?_signed hminus hplus, readUnsigned?_digit hc, hread, Option.map_some, hvalue,
    ofMagnitude_magnitude]

theorem read?_finitePlain {x : Float} (hnan : x.isNaN = false) (hinf : x.isInf = false) :
    read? (finitePlain x) = some x := by
  have hdigits := isDigits_digits .up x
  obtain ⟨d, hread, hvalue⟩ := exists_readDecimal?_positional hdigits
  exact read?_signed_of_isMagnitude (Digits.isMagnitude_positional hdigits) hread
    (hvalue.trans (toMagnitude_digits .up hnan hinf))

/-- Every number is read back from its text in a table cell. -/
@[simp]
theorem read?_cell (x : Float) : read? (cell x) = some x := by
  unfold cell plain
  split
  · rename_i hnan
    rw [eq_nan_of_isNaN hnan]
    rfl
  · rename_i hnan
    split
    · rename_i hinf
      rw [read?_signed (by decide) (by decide)]
      change some (ofMagnitude (isNegative x) infinite) = some x
      rw [← magnitude_of_isInf hinf, ofMagnitude_magnitude]
    · rename_i hinf
      exact read?_finitePlain (Bool.eq_false_iff.mpr hnan) (Bool.eq_false_iff.mpr hinf)

/-- Digits up to the point or in front of it are shown to be no whole number by one more zero. -/
theorem exists_readDecimal?_positional_zero {d : Digits} (h : IsDigits d.digits)
    (hplace : (d.digits.length : Int) ≤ d.place) : IsMagnitude (d.positional ++ ['.', '0']) ∧
      ∃ r, readDecimal? (d.positional ++ ['.', '0']) = some r ∧
        r.toMagnitude = d.decimal.toMagnitude := by
  obtain ⟨k, hk, hwhole, htext⟩ | ⟨_, fraction, _, hfraction, _, _, hshort⟩ :=
    Digits.positional_cases h
  · rw [htext]
    refine ⟨⟨_, _, _, _, _, _, hwhole, .present isDigits_zero, .absent, by simp⟩, _,
      readDecimal?_fraction hwhole isDigits_zero, ?_⟩
    have hzeros : List.replicate k '0' ++ ['0'] = List.replicate (k + 1) '0' :=
      List.replicate_succ'.symm
    have hexponent : (-([('0')] : List Char).length : Int) + ((k + 1 : Nat) : Int)
        = d.place - d.digits.length := by
      rw [List.length_singleton]
      omega
    rw [List.append_assoc, hzeros, digitsValue_append_zeros, Decimal.toMagnitude_scale, hexponent]
    rfl
  · have hpos : 0 < fraction.length := List.length_pos_iff.mpr (isDigits_iff.mp hfraction).1
    omega

/-- Every number that has a text in JSON is read back from it. -/
theorem read?_json {x : Float} {text : List Char} (h : json? x = some text) :
    read? text = some x := by
  have hdigits := isDigits_digits .toEven x
  unfold json? at h
  split at h
  · cases h
  · rename_i hfinite
    obtain ⟨hnan, hinf⟩ := Bool.or_eq_false_iff.mp (Bool.eq_false_iff.mpr hfinite)
    have hvalue := toMagnitude_digits .toEven hnan hinf
    cases h
    split
    · exact read?_signed_of_isMagnitude (Digits.isMagnitude_scientific .plus hdigits)
        (readDecimal?_scientific hdigits) hvalue
    · split
      · rename_i hplace
        obtain ⟨hmagnitude, d, hread, heq⟩ := exists_readDecimal?_positional_zero hdigits hplace
        exact read?_signed_of_isMagnitude hmagnitude hread (heq.trans hvalue)
      · obtain ⟨d, hread, heq⟩ := exists_readDecimal?_positional hdigits
        exact read?_signed_of_isMagnitude (Digits.isMagnitude_positional hdigits) hread
          (heq.trans hvalue)

/-! ## Cells -/

theorem isBlank_of_mem_positional {d : Digits} (h : IsDigits d.digits) :
    ∀ c ∈ d.positional, Text.isBlank c = false := by
  obtain ⟨k, -, hwhole, htext⟩ | ⟨whole, fraction, hwhole, hfraction, htext, -⟩ :=
    Digits.positional_cases h
  · rw [htext]
    exact isBlank_of_mem_digits hwhole
  · rw [htext]
    intro c hc
    rcases List.mem_append.mp hc with hc | hc
    · exact isBlank_of_mem_digits hwhole c hc
    · rcases List.mem_cons.mp hc with rfl | hc
      · decide
      · exact isBlank_of_mem_digits hfraction c hc

theorem isBlank_of_mem_signed {x : Float} {text : List Char}
    (h : ∀ c ∈ text, Text.isBlank c = false) : ∀ c ∈ signed x text, Text.isBlank c = false := by
  intro c hc
  unfold signed at hc
  split at hc
  · rcases List.mem_cons.mp hc with rfl | hc
    · decide
    · exact h c hc
  · exact h c hc

theorem isBlank_of_mem_cell {x : Float} : ∀ c ∈ cell x, Text.isBlank c = false := by
  unfold cell plain
  split
  · simpa using List.all_eq_true.mp
      (show ['n', 'a', 'n'].all (fun c => !Text.isBlank c) = true by decide)
  · split
    · refine isBlank_of_mem_signed ?_
      simpa using List.all_eq_true.mp
        (show ['i', 'n', 'f'].all (fun c => !Text.isBlank c) = true by decide)
    · exact isBlank_of_mem_signed (isBlank_of_mem_positional (isDigits_digits .up x))

end Number

@[simp]
theorem Cell.trim_ofNumber (v : Float) : Text.trim (Cell.ofNumber v) = Cell.ofNumber v :=
  Text.trim_of_not_isBlank (by simpa [Cell.ofNumber] using Number.isBlank_of_mem_cell)

/-- The text of a number in a cell stands for that very number. -/
@[simp]
theorem Cell.number?_ofNumber (v : Float) : Cell.number? (Cell.ofNumber v) = some v := by
  have htrim : Text.trimList (Number.cell v) = Number.cell v :=
    Text.trimList_of_not_isBlank Number.isBlank_of_mem_cell
  rw [Cell.number?, Cell.ofNumber, String.toList_ofList, htrim, Number.read?_cell]

@[simp]
theorem Cell.number_ofNumber (v : Float) : Cell.number (Cell.ofNumber v) = v := by
  simp [Cell.number]

@[simp]
theorem Cell.numberOrTruth?_ofNumber (v : Float) :
    Cell.numberOrTruth? (Cell.ofNumber v) = some v := by
  simp [Cell.numberOrTruth?]

end ColumnCalc
