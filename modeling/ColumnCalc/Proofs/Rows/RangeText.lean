import ColumnCalc.Proofs.Expr.Choice
import ColumnCalc.Proofs.Number.Spelling
import ColumnCalc.Proofs.Results
import ColumnCalc.Proofs.Text.Trimming
import ColumnCalc.Rows.Range

/-!
# The texts of ranges

The texts that are read as a range, as relations that say nothing about how they are read: two
bounds with a colon between them (`IsRegion`), and digits with or without a plus sign (`IsDivider`),
with blanks around each bound and around the divider. Every such text is read, with the numbers
that its digits stand for, and no other text is (`range_by_texts`); so a range comes back from the
text it is written as.
-/

namespace ColumnCalc

open Grammar Text
open Number (digitsValue digitsValue_toDigits isBlank_of_mem_digits isDigits_iff isDigits_toDigits)

/-! ## Trimming -/

/-- Trimming takes nothing but blanks away, and all of them if none are inside. -/
theorem trimList_eq_iff {s t : List Char} (ht : ∀ c ∈ t, isBlank c = false) :
    trimList s = t ↔ ∃ b b', IsBlanks b ∧ IsBlanks b' ∧ s = b ++ t ++ b' := by
  constructor
  · rintro rfl
    obtain ⟨b, hb, hs⟩ := exists_skipBlank s
    obtain ⟨b', hb', hrest⟩ := exists_trimEnd isBlank (skipBlank s)
    refine ⟨b, b', hb, hb', ?_⟩
    rw [List.append_assoc, trimList, ← hrest]
    exact hs
  · rintro ⟨b, b', hb, hb', rfl⟩
    cases t with
    | nil =>
      have hskip : skipBlank (b ++ b') = [] := by
        rw [← List.append_nil (b ++ b')]
        exact skipBlank_append (isBlanks_append hb hb')
      rw [List.append_nil, trimList, hskip]
      rfl
    | cons c r =>
      rw [List.append_assoc, trimList, skipBlank_append hb, List.cons_append,
        skipBlank_cons (ht c (.head r)), ← List.cons_append]
      exact trimEnd_append (fun d hd => ht d (List.mem_of_mem_getLast? hd)) hb'

namespace RowRange

/-! ## Bounds and dividers -/

/-- Nothing, or digits with or without a minus, for a number that fits in 64 bits with its sign. -/
inductive IsBound : List Char → Option Int → Prop where
  | absent : IsBound [] none
  | natural {ds : List Char} :
      IsDigits ds → digitsValue ds < 2 ^ 63 → IsBound ds (some (digitsValue ds))
  | negative {ds : List Char} :
      IsDigits ds → digitsValue ds ≤ 2 ^ 63 → IsBound ('-' :: ds) (some (-digitsValue ds))

/-- Two bounds, each between blanks, and a colon between them. -/
inductive IsRegion : List Char → Option Int → Option Int → Prop where
  | mk {b left b' c right c' : List Char} {first behind : Option Int} :
      IsBlanks b → IsBound left first → IsBlanks b' →
      IsBlanks c → IsBound right behind → IsBlanks c' →
      IsRegion (b ++ left ++ b' ++ ':' :: (c ++ right ++ c')) first behind

/-- Digits between blanks, perhaps with a plus, for a positive number that fits in 64 bits. -/
inductive IsDivider : List Char → Nat → Prop where
  | mk {b sign ds b' : List Char} :
      IsBlanks b → IsSign sign false → IsDigits ds → IsBlanks b' →
      0 < digitsValue ds → digitsValue ds < 2 ^ 64 →
      IsDivider (b ++ (sign ++ ds) ++ b') (digitsValue ds)

variable {s left right : List Char} {text region divider : String} {first behind : Option Int}
  {n : Nat}

theorem IsDivider.pos (h : IsDivider s n) : 0 < n := by
  cases h
  assumption

theorem isDigit_or_of_mem_bound (h : IsBound s first) : ∀ c ∈ s, c.isDigit = true ∨ c = '-' := by
  intro c hc
  cases h with
  | absent => cases hc
  | natural hds _ => exact .inl ((isDigits_iff.mp hds).2 c hc)
  | negative hds _ =>
    rcases List.mem_cons.mp hc with rfl | hc
    · exact .inr rfl
    · exact .inl ((isDigits_iff.mp hds).2 c hc)

theorem isBlank_of_mem_bound (h : IsBound s first) : ∀ c ∈ s, isBlank c = false := by
  intro c hc
  rcases isDigit_or_of_mem_bound h c hc with hdigit | rfl
  · exact isBlank_of_isIdentPart (isIdentPart_of_isDigit hdigit)
  · decide

theorem natural?_eq_some_iff : natural? s = some n ↔ IsDigits s ∧ digitsValue s = n := by
  simp [natural?, isDigits_iff]

theorem bound?_eq_some_iff : bound? s = some first ↔ IsBound s first := by
  unfold bound?
  split
  · constructor
    · rintro ⟨⟩
      exact .absent
    · intro h
      cases h with
      | absent => rfl
      | natural hds _ => cases hds
  · simp only [bind_pure_comp, Option.map_eq_map, Option.map_map, Option.map_eq_some_iff,
      Option.filter_eq_some_iff, natural?_eq_some_iff]
    constructor
    · rintro ⟨_, ⟨⟨hds, rfl⟩, hle⟩, rfl⟩
      exact .negative hds (of_decide_eq_true hle)
    · intro h
      cases h with
      | natural hds _ => exact absurd hds.1 (by decide)
      | negative hds hle => exact ⟨_, ⟨⟨hds, rfl⟩, decide_eq_true hle⟩, rfl⟩
  · -- neither empty nor with a minus in front: only digits are left
    rename_i hnil hminus
    simp only [bind_pure_comp, Option.map_eq_map, Option.map_map, Option.map_eq_some_iff,
      Option.filter_eq_some_iff, natural?_eq_some_iff]
    constructor
    · rintro ⟨_, ⟨⟨hds, rfl⟩, hlt⟩, rfl⟩
      exact .natural hds (of_decide_eq_true hlt)
    · intro h
      cases h with
      | absent => exact absurd rfl hnil
      | natural hds hlt => exact ⟨_, ⟨⟨hds, rfl⟩, decide_eq_true hlt⟩, rfl⟩
      | negative _ _ => exact absurd rfl (hminus _)

theorem count?_eq_some_iff : count? s = some n ↔ ∃ sign ds, IsSign sign false ∧ IsDigits ds ∧
    s = sign ++ ds ∧ digitsValue ds = n ∧ n < 2 ^ 64 := by
  unfold count?
  simp only [Option.filter_eq_some_iff, natural?_eq_some_iff]
  constructor
  · split
    · rintro ⟨⟨hds, hn⟩, hlt⟩
      exact ⟨_, _, .plus, hds, rfl, hn, of_decide_eq_true hlt⟩
    · rintro ⟨⟨hds, hn⟩, hlt⟩
      exact ⟨_, _, .absent, hds, rfl, hn, of_decide_eq_true hlt⟩
  · rintro ⟨sign, ds, hsign, hds, rfl, hn, hlt⟩
    cases hsign with
    | plus => exact ⟨⟨hds, hn⟩, decide_eq_true hlt⟩
    | absent =>
      -- digits do not start with the plus that would be cut off
      split
      · rename_i hplus
        cases hplus
        exact absurd hds.1 (by decide)
      · exact ⟨⟨hds, hn⟩, decide_eq_true hlt⟩

/-! ## Regions -/

/-- The sides are what stands before and after the first colon. -/
theorem sides?_eq_some_iff : sides? s = some (left, right) ↔ ∃ before after, ':' ∉ before ∧
    s = before ++ ':' :: after ∧ trimList before = left ∧ trimList after = right := by
  constructor
  · intro h
    unfold sides? at h
    split at h
    · cases h
    · rename_i c after hafter
      cases h
      have hcolon := List.head?_dropWhile_not (· != ':') s
      rw [hafter] at hcolon
      obtain rfl : c = ':' := by simpa using hcolon
      refine ⟨s.takeWhile (· != ':'), after, fun hmem => ?_, ?_, rfl, rfl⟩
      · simpa using List.mem_takeWhile_imp hmem
      · rw [← hafter, List.takeWhile_append_dropWhile]
  · rintro ⟨before, after, hbefore, rfl, rfl, rfl⟩
    have hcolon : ∀ c ∈ before, (c != ':') = true := by
      intro c hc
      rw [bne_iff_ne]
      rintro rfl
      exact hbefore hc
    have hdrop : (before ++ ':' :: after).dropWhile (· != ':') = ':' :: after :=
      List.dropWhile_append_of_pos hcolon
    have htake : (before ++ ':' :: after).takeWhile (· != ':') = before := by
      rw [List.takeWhile_append_of_pos hcolon]
      exact List.append_nil before
    simp only [sides?, hdrop, htake]

theorem colon_notMem {b b' : List Char} (hb : IsBlanks b) (hbound : IsBound s first)
    (hb' : IsBlanks b') : ':' ∉ b ++ s ++ b' := by
  intro hmem
  simp only [List.mem_append] at hmem
  rcases hmem with (hmem | hmem) | hmem
  · exact absurd (hb _ hmem) (by decide)
  · rcases isDigit_or_of_mem_bound hbound _ hmem with h | h
    · exact absurd h (by decide)
    · exact absurd h (by decide)
  · exact absurd (hb' _ hmem) (by decide)

theorem exists_sides?_iff : (∃ left right, sides? s = some (left, right) ∧
    bound? left = some first ∧ bound? right = some behind) ↔ IsRegion s first behind := by
  simp only [sides?_eq_some_iff, bound?_eq_some_iff]
  constructor
  · rintro ⟨_, _, ⟨before, after, -, rfl, rfl, rfl⟩, hfirst, hbehind⟩
    obtain ⟨b, b', hb, hb', hbefore⟩ := (trimList_eq_iff (isBlank_of_mem_bound hfirst)).mp rfl
    obtain ⟨c, c', hc, hc', hafter⟩ := (trimList_eq_iff (isBlank_of_mem_bound hbehind)).mp rfl
    rw [hbefore, hafter]
    exact .mk hb hfirst hb' hc hbehind hc'
  · rintro ⟨hb, hfirst, hb', hc, hbehind, hc'⟩
    have hleft := (trimList_eq_iff (isBlank_of_mem_bound hfirst)).mpr ⟨_, _, hb, hb', rfl⟩
    have hright := (trimList_eq_iff (isBlank_of_mem_bound hbehind)).mpr ⟨_, _, hc, hc', rfl⟩
    exact ⟨_, _, ⟨_, _, colon_notMem hb hfirst hb', rfl, hleft, hright⟩, hfirst, hbehind⟩

theorem startOf_eq (bound : Option Int) : (startOf bound : Int) = max (bound.getD 0) 0 :=
  Int.toNat_eq_max _

theorem stopOf_eq_some_iff {bound : Option Int} {j : Nat} :
    stopOf bound = some j ↔ bound = some (j : Int) := by
  simp only [stopOf, Option.map_eq_some_iff, Option.filter_eq_some_iff, decide_eq_true_eq]
  constructor
  · rintro ⟨i, ⟨rfl, hi⟩, rfl⟩
    rw [Int.toNat_of_nonneg hi]
  · rintro rfl
    exact ⟨j, ⟨rfl, Int.natCast_nonneg j⟩, Int.toNat_natCast j⟩

theorem parseRegion_of_isRegion (h : IsRegion text.toList first behind) :
    parseRegion text = .ok (startOf first, stopOf behind) := by
  obtain ⟨left, right, hsides, hfirst, hbehind⟩ := exists_sides?_iff.mpr h
  simp only [parseRegion, hsides, Option.bind_eq_bind, Option.bind_some, hfirst, hbehind]
  rfl

theorem parseRegion_of_not_isRegion (h : ¬ ∃ first behind, IsRegion text.toList first behind) :
    parseRegion text = .error (.invalidRegion text) := by
  simp only [parseRegion]
  split
  · rename_i bounds hbounds
    simp only [Option.bind_eq_bind, Option.bind_eq_some_iff] at hbounds
    obtain ⟨⟨left, right⟩, hsides, first, hfirst, behind, hbehind, -⟩ := hbounds
    exact absurd ⟨first, behind, exists_sides?_iff.mp ⟨left, right, hsides, hfirst, hbehind⟩⟩ h
  · rfl

/-! ## Dividers -/

theorem isBlank_of_mem_count {sign ds : List Char} (hsign : IsSign sign false)
    (hds : IsDigits ds) : ∀ c ∈ sign ++ ds, isBlank c = false := by
  intro c hc
  cases hsign with
  | absent => exact isBlank_of_mem_digits hds c hc
  | plus =>
    rcases List.mem_cons.mp hc with rfl | hc
    · decide
    · exact isBlank_of_mem_digits hds c hc

theorem count?_trimList_iff : count? (trimList s) = some n ∧ 0 < n ↔ IsDivider s n := by
  rw [count?_eq_some_iff]
  constructor
  · rintro ⟨⟨sign, ds, hsign, hds, htrim, rfl, hlt⟩, hpos⟩
    obtain ⟨b, b', hb, hb', rfl⟩ := (trimList_eq_iff (isBlank_of_mem_count hsign hds)).mp htrim
    exact .mk hb hsign hds hb' hpos hlt
  · rintro ⟨hb, hsign, hds, hb', hpos, hlt⟩
    have htrim := (trimList_eq_iff (isBlank_of_mem_count hsign hds)).mpr ⟨_, _, hb, hb', rfl⟩
    exact ⟨⟨_, _, hsign, hds, htrim, rfl, hlt⟩, hpos⟩

theorem parseDivider_of_isDivider (h : IsDivider text.toList n) : parseDivider text = .ok n := by
  obtain ⟨hcount, hpos⟩ := count?_trimList_iff.mpr h
  obtain ⟨m, rfl⟩ := Nat.exists_eq_succ_of_ne_zero hpos.ne'
  simp only [parseDivider, hcount]

theorem parseDivider_of_not_isDivider (h : ¬ ∃ n, IsDivider text.toList n) :
    parseDivider text = .error (.invalidDivider text) := by
  unfold parseDivider
  split
  · rfl
  · rfl
  · rename_i n hzero hcount
    exact absurd ⟨n, count?_trimList_iff.mp ⟨hcount, Nat.pos_of_ne_zero hzero⟩⟩ h

/-! ## Ranges -/

theorem of_eq_iff {range : RowRange} (hn : 0 < n) :
    of (startOf first) (stopOf behind) n = range ↔ (range.start : Int) = max (first.getD 0) 0 ∧
      (∀ j : Nat, range.stop = some j ↔ behind = some (j : Int)) ∧ range.divider = n := by
  have hmax : max n 1 = n := Nat.max_eq_left hn
  constructor
  · rintro rfl
    exact ⟨startOf_eq first, fun j => stopOf_eq_some_iff, hmax⟩
  · rintro ⟨hstart, hstop, hdivider⟩
    obtain ⟨start, stop, divider, hpos⟩ := range
    rw [← startOf_eq, Int.natCast_inj] at hstart
    have hstop : stop = stopOf behind := Option.ext fun j => (hstop j).trans stopOf_eq_some_iff.symm
    simp only [of, hmax, mk.injEq]
    exact ⟨hstart.symm, hstop.symm, hdivider.symm⟩

theorem parse_of_texts (hregion : IsRegion region.toList first behind)
    (hdivider : IsDivider divider.toList n) :
    parse region divider = .ok (of (startOf first) (stopOf behind) n) := by
  rw [parse, parseRegion_of_isRegion hregion, parseDivider_of_isDivider hdivider]
  rfl

theorem parse_of_not_isRegion (h : ¬ ∃ first behind, IsRegion region.toList first behind) :
    parse region divider = .error (.invalidRegion region) := by
  rw [parse, parseRegion_of_not_isRegion h]
  rfl

theorem parse_of_not_isDivider (hregion : IsRegion region.toList first behind)
    (h : ¬ ∃ n, IsDivider divider.toList n) :
    parse region divider = .error (.invalidDivider divider) := by
  rw [parse, parseRegion_of_isRegion hregion, parseDivider_of_not_isDivider h]
  rfl

/-- The region comes first: what the divider is like is seen only behind a good region. -/
theorem parse_cases (region divider : String) :
    (∃ first behind n, IsRegion region.toList first behind ∧ IsDivider divider.toList n ∧
      parse region divider = .ok (of (startOf first) (stopOf behind) n)) ∨
    ((¬ ∃ first behind, IsRegion region.toList first behind) ∧
      parse region divider = .error (.invalidRegion region)) ∨
    ((∃ first behind, IsRegion region.toList first behind) ∧
      (¬ ∃ n, IsDivider divider.toList n) ∧
      parse region divider = .error (.invalidDivider divider)) := by
  by_cases hregion : ∃ first behind, IsRegion region.toList first behind
  · obtain ⟨first, behind, hregion⟩ := hregion
    by_cases hdivider : ∃ n, IsDivider divider.toList n
    · obtain ⟨n, hdivider⟩ := hdivider
      exact .inl ⟨first, behind, n, hregion, hdivider, parse_of_texts hregion hdivider⟩
    · exact .inr (.inr ⟨⟨first, behind, hregion⟩, hdivider,
        parse_of_not_isDivider hregion hdivider⟩)
  · exact .inr (.inl ⟨hregion, parse_of_not_isRegion hregion⟩)

/-! ## Ranges as they are written -/

/-- The region of a range, without a number for the end of an open range. -/
def regionText (range : RowRange) : String :=
  toString range.start ++ ":" ++ range.stop.elim "" toString

def dividerText (range : RowRange) : String :=
  toString range.divider

@[simp]
theorem digitsValue_toString (n : Nat) : digitsValue (toString n).toList = n := by
  rw [Nat.toString_eq_repr, Nat.toList_repr, digitsValue_toDigits]

theorem isDigits_toString (n : Nat) : IsDigits (toString n).toList := by
  rw [Nat.toString_eq_repr, Nat.toList_repr]
  exact isDigits_toDigits n

theorem isBound_toString (hn : n < 2 ^ 63) : IsBound (toString n).toList (some n) := by
  have h := IsBound.natural (isDigits_toString n)
  rw [digitsValue_toString] at h
  exact h hn

theorem IsRegion.of_bounds (hleft : IsBound left first) (hright : IsBound right behind) :
    IsRegion (left ++ ':' :: right) first behind := by
  have h := IsRegion.mk isBlanks_nil hleft isBlanks_nil isBlanks_nil hright isBlanks_nil
  rw [List.nil_append, List.nil_append, List.append_nil, List.append_nil] at h
  exact h

variable {range : RowRange}

theorem isRegion_regionText (hstart : range.start < 2 ^ 63)
    (hstop : ∀ j, range.stop = some j → j < 2 ^ 63) :
    IsRegion range.regionText.toList (some range.start) (range.stop.map Int.ofNat) := by
  have hright : IsBound (range.stop.elim "" toString).toList (range.stop.map Int.ofNat) := by
    cases hj : range.stop with
    | none => exact .absent
    | some j => exact isBound_toString (hstop j hj)
  have htext : range.regionText.toList
      = (toString range.start).toList ++ ':' :: (range.stop.elim "" toString).toList := by
    simp [regionText]
  rw [htext]
  exact .of_bounds (isBound_toString hstart) hright

theorem isDivider_dividerText (h : range.divider < 2 ^ 64) :
    IsDivider range.dividerText.toList range.divider := by
  have hdivider := IsDivider.mk isBlanks_nil .absent (isDigits_toString range.divider) isBlanks_nil
  rw [digitsValue_toString, List.nil_append, List.nil_append, List.append_nil] at hdivider
  exact hdivider range.divider_pos h

end RowRange

/--
A region and a divider are read exactly if they are one, and the range has the numbers that they
stand for: a first bound that is negative counts as zero, a second one as open, and nothing wraps
around. A text that is refused is named, the region first. A range within the limits comes back from
the texts it is written as.
-/
theorem range_by_texts :
    (∀ (region divider : String) (range : RowRange), RowRange.parse region divider = .ok range ↔
      ∃ first behind n, RowRange.IsRegion region.toList first behind ∧
        RowRange.IsDivider divider.toList n ∧
        (range.start : Int) = max (first.getD 0) 0 ∧
        (∀ j : Nat, range.stop = some j ↔ behind = some (j : Int)) ∧ range.divider = n) ∧
    (∀ (region divider : String) (err : RangeError), RowRange.parse region divider = .error err ↔
      (¬ ∃ first behind, RowRange.IsRegion region.toList first behind) ∧
          err = .invalidRegion region ∨
        (∃ first behind, RowRange.IsRegion region.toList first behind) ∧
          (¬ ∃ n, RowRange.IsDivider divider.toList n) ∧ err = .invalidDivider divider) ∧
    ∀ range : RowRange, range.start < 2 ^ 63 → (∀ j, range.stop = some j → j < 2 ^ 63) →
      range.divider < 2 ^ 64 → RowRange.parse range.regionText range.dividerText = .ok range := by
  refine ⟨fun region divider range => ⟨fun h => ?_, ?_⟩,
    fun region divider err => ⟨fun h => ?_, ?_⟩, fun range hstart hstop hdivider => ?_⟩
  · rcases RowRange.parse_cases region divider with
      ⟨first, behind, n, hregion, hdivider, hok⟩ | ⟨-, herror⟩ | ⟨-, -, herror⟩
    · obtain rfl := Except.ok.inj (h.symm.trans hok)
      exact ⟨first, behind, n, hregion, hdivider, (RowRange.of_eq_iff hdivider.pos).mp rfl⟩
    · cases h.symm.trans herror
    · cases h.symm.trans herror
  · rintro ⟨first, behind, n, hregion, hdivider, hrange⟩
    rw [RowRange.parse_of_texts hregion hdivider, (RowRange.of_eq_iff hdivider.pos).mpr hrange]
  · rcases RowRange.parse_cases region divider with
      ⟨_, _, _, -, -, hok⟩ | ⟨hno, herror⟩ | ⟨hregion, hno, herror⟩
    · cases h.symm.trans hok
    · exact .inl ⟨hno, Except.error.inj (h.symm.trans herror)⟩
    · exact .inr ⟨hregion, hno, Except.error.inj (h.symm.trans herror)⟩
  · rintro (⟨hno, rfl⟩ | ⟨⟨first, behind, hregion⟩, hno, rfl⟩)
    · exact RowRange.parse_of_not_isRegion hno
    · exact RowRange.parse_of_not_isDivider hregion hno
  · rw [RowRange.parse_of_texts (RowRange.isRegion_regionText hstart hstop)
      (RowRange.isDivider_dividerText hdivider)]
    refine congrArg Except.ok ((RowRange.of_eq_iff range.divider_pos).mpr ⟨?_, fun j => ?_, rfl⟩)
    · exact (Int.max_eq_left (Int.natCast_nonneg range.start)).symm
    · simp only [Option.map_eq_some_iff, Int.ofNat_eq_natCast, Int.natCast_inj, exists_eq_right]

theorem range_by_texts_limits :
    let range : RowRange := ⟨2 ^ 63 - 1, some (2 ^ 63 - 1), 2 ^ 64 - 1, by decide⟩
    let beyond := "9223372036854775808:"
    (range.start < 2 ^ 63 ∧ (∀ j, range.stop = some j → j < 2 ^ 63) ∧ range.divider < 2 ^ 64) ∧
      RowRange.parse range.regionText range.dividerText = .ok range ∧
      RowRange.parse "\u3000-05 :0070\n" "+3" = .ok ⟨0, some 70, 3, by decide⟩ ∧
      RowRange.parse beyond "0" = .error (.invalidRegion beyond) := by
  intro range beyond
  have hstart : range.start < 2 ^ 63 := by decide
  have hstop : ∀ j, range.stop = some j → j < 2 ^ 63 := by
    rintro j ⟨⟩
    decide
  have hdivider : range.divider < 2 ^ 64 := by decide
  have hregion : RowRange.IsRegion "\u3000-05 :0070\n".toList (some (-5)) (some 70) :=
    RowRange.exists_sides?_iff.mp ⟨['-', '0', '5'], ['0', '0', '7', '0'], by decide⟩
  have hthree : RowRange.IsDivider "+3".toList 3 := RowRange.count?_trimList_iff.mp (by decide)
  have hbeyond : ¬ ∃ first behind, RowRange.IsRegion beyond.toList first behind := by
    rintro ⟨first, behind, h⟩
    obtain ⟨left, right, hsides, hleft, -⟩ := RowRange.exists_sides?_iff.mpr h
    have hdigits : RowRange.sides? beyond.toList = some ("9223372036854775808".toList, []) := by
      decide
    have hnone : RowRange.bound? "9223372036854775808".toList = none := by decide
    cases hsides.symm.trans hdigits
    cases hleft.symm.trans hnone
  refine ⟨⟨hstart, hstop, hdivider⟩, range_by_texts.2.2 range hstart hstop hdivider,
    (range_by_texts.1 _ _ _).mpr ⟨_, _, _, hregion, hthree, by decide, fun j => ?_, rfl⟩,
    (range_by_texts.2.1 _ _ _).mpr (.inl ⟨hbeyond, rfl⟩)⟩
  simp only [Option.some.injEq]
  omega

end ColumnCalc
