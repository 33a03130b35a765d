import ColumnCalc.Expr.Cursor
import ColumnCalc.Proofs.Expr.Scanning

/-!
# Where cursors stand

A cursor that starts at the front of a text stands between two characters of it, wherever its steps
lead: each step moves it by the bytes of the characters that the step takes (`Between.skip`). The
steps that give a name, digits or an operator take what the scanner of expressions takes.

* `Cursor.Between c front rest`: the cursor stands behind `front` and in front of `rest`.
* `Cursor.Step.Takes`: the texts that a step may take. It takes the longest one (`IsLongest`).
* `cursor_run_valid`: every cursor of a run stands between two characters, and what its next step
  gives is the text that the step passes.
-/

namespace ColumnCalc

open Text Grammar

/-! ## Longest texts -/

/-- A text of a kind at the front of `s` that no other one is longer than. -/
def IsLongest (kind : List Char → Prop) (s t : List Char) : Prop :=
  kind t ∧ t <+: s ∧ ∀ u, kind u → u <+: s → u <+: t

theorem IsLongest.unique {kind : List Char → Prop} {s t u : List Char} (ht : IsLongest kind s t)
    (hu : IsLongest kind s u) : t = u :=
  (hu.2.2 t ht.1 ht.2.1).eq_of_length_le (ht.2.2 u hu.1 hu.2.1).length_le

section
variable {start part p : Char → Bool} {s t : List Char}

theorem prefix_takeWhile (hp : ∀ c ∈ t, p c = true) (ht : t <+: s) : t <+: s.takeWhile p := by
  obtain ⟨r, rfl⟩ := ht
  rw [List.takeWhile_append_of_pos hp]
  exact List.prefix_append _ _

theorem isLongest_takeWhile (p : Char → Bool) (s : List Char) :
    IsLongest (fun t => ∀ c ∈ t, p c = true) s (s.takeWhile p) :=
  ⟨fun _ hc => List.mem_takeWhile_imp hc, List.takeWhile_prefix p, fun _ => prefix_takeWhile⟩

theorem isLongest_take_one (s : List Char) : IsLongest (fun t => t.length ≤ 1) s (s.take 1) := by
  refine ⟨List.length_take_le 1 s, List.take_prefix 1 s, fun u hu hus => ?_⟩
  obtain ⟨r, rfl⟩ := hus
  rw [List.prefix_take_iff]
  exact ⟨List.prefix_append u r, hu⟩

theorem isLongest_of_run? {q : Parsed (List Char) s} (h : Scan.run? start part s = some q) :
    IsLongest (IsRun start part) s q.value := by
  obtain ⟨hrun, hs⟩ := isRun_of_run? h
  refine ⟨hrun, ⟨q.rest, hs.symm⟩, fun u hu hus => ?_⟩
  cases s with
  | nil => cases h
  | cons c r =>
    simp only [Scan.run?] at h
    split at h
    · cases h
      cases u with
      | nil => exact List.nil_prefix
      | cons d u =>
        obtain ⟨rfl, hur⟩ := List.cons_prefix_cons.mp hus
        exact List.cons_prefix_cons.mpr ⟨rfl, prefix_takeWhile hu.2 hur⟩
    · cases h

theorem not_isRun_of_run? (h : Scan.run? start part s = none) (ht : t <+: s) :
    ¬ IsRun start part t := by
  intro hrun
  obtain ⟨c, u, rfl, hc⟩ := isRun_head hrun
  obtain ⟨r, rfl⟩ := ht
  simp [Scan.run?, hc] at h

theorem isLongest_of_oneOf? {options : List Char} {q : Parsed Char s}
    (h : Scan.oneOf? options s = some q) :
    IsLongest (fun t => ∃ d ∈ options, t = [d]) s [q.value] := by
  obtain ⟨hmem, hs⟩ := oneOf?_eq_some_iff.mp h
  refine ⟨⟨q.value, hmem, rfl⟩, ⟨q.rest, hs.symm⟩, ?_⟩
  rintro _ ⟨d, -, rfl⟩ hd
  rw [hs, List.cons_prefix_cons] at hd
  obtain ⟨rfl, -⟩ := hd
  exact List.prefix_rfl

theorem not_mem_of_oneOf? {options : List Char} (h : Scan.oneOf? options s = none) (ht : t <+: s) :
    ¬ ∃ d ∈ options, t = [d] := by
  rintro ⟨d, hd, rfl⟩
  obtain ⟨r, rfl⟩ := ht
  exact oneOf?_eq_none_iff.mp h d rfl hd

end

/-! ## Places between characters -/

/-- The number of bytes of a text. -/
def Text.byteSize (s : List Char) : Nat :=
  (String.ofList s).utf8ByteSize

@[simp]
theorem Text.byteSize_append (s t : List Char) : byteSize (s ++ t) = byteSize s + byteSize t := by
  simp [byteSize]

@[simp]
theorem Text.byteSize_singleton (c : Char) : byteSize [c] = c.utf8Size := by
  simp [byteSize]

namespace Cursor

/-- The cursor stands in its text behind `front` and in front of `rest`. -/
structure Between (c : Cursor) (front rest : List Char) : Prop where
  text : c.text = .ofList (front ++ rest)
  position : c.position = byteSize front

section
variable {c : Cursor} {front s r : List Char} {d : Char} {p start part : Char → Bool}

theorem between_ofString (text : String) : (ofString text).Between [] text.toList :=
  ⟨String.ofList_toList.symm, rfl⟩

theorem Between.slice (h : c.Between front (s ++ r)) :
    slice? c.text c.position (c.position + byteSize s) = some (.ofList s) := by
  refine slice?_eq_some_iff.mpr ⟨.ofList front, .ofList r, ?_, h.position, ?_⟩
  · rw [h.text, String.ofList_append, String.ofList_append, String.append_assoc]
  · rw [h.position]
    rfl

/-- A step by the bytes of a text that stands behind the cursor leads behind that text. -/
theorem Between.skip (h : c.Between front (s ++ r)) :
    (c.skip (byteSize s)).Between (front ++ s) r := by
  refine ⟨?_, ?_⟩
  · rw [List.append_assoc]
    exact h.text
  · rw [byteSize_append, ← h.position]
    rfl

theorem Between.slice_remaining (h : c.Between front s) :
    slice? c.text c.position c.text.utf8ByteSize = some (.ofList s) := by
  have hslice := Between.slice (r := []) (by rwa [List.append_nil])
  rwa [h.position, ← byteSize_append, ← h.position, byteSize, ← h.text] at hslice

theorem Between.remaining (h : c.Between front s) : c.remaining = .ofList s := by
  rw [Cursor.remaining, h.slice_remaining]
  rfl

theorem Between.current? (h : c.Between front s) : c.current? = s.head? := by
  rw [Cursor.current?, peek?, h.remaining, String.toList_ofList, List.head?_eq_getElem?]

theorem Between.advance_cons (h : c.Between front (d :: r)) :
    c.advance = c.skip (byteSize [d]) := by
  simp only [advance, h.current?, List.head?_cons, byteSize_singleton]

theorem Between.advance_nil (h : c.Between front []) : c.advance = c := by
  simp only [advance, h.current?, List.head?_nil]

theorem runSize_eq (p : Char → Bool) (s : List Char) : runSize p s = byteSize (s.takeWhile p) := by
  induction s with
  | nil => rfl
  | cons c r ih =>
    rw [runSize, List.takeWhile_cons]
    split
    · rw [ih, ← byteSize_singleton, ← byteSize_append]
      rfl
    · rfl

theorem Between.takeWhile (h : c.Between front s) :
    c.takeWhile p = (.ofList (s.takeWhile p), c.skip (byteSize (s.takeWhile p))) := by
  have hslice : slice? (.ofList s) 0 (byteSize (s.takeWhile p)) =
      some (.ofList (s.takeWhile p)) := by
    refine slice?_eq_some_iff.mpr ⟨"", .ofList (s.dropWhile p), ?_, rfl, (Nat.zero_add _).symm⟩
    rw [String.empty_append, ← String.ofList_append, List.takeWhile_append_dropWhile]
  simp only [Cursor.takeWhile, h.remaining, String.toList_ofList, runSize_eq, hslice,
    Option.getD_some]

/-! ## The steps of the scanner -/

theorem Between.oneOf? {options : List Char} (h : c.Between front s) :
    c.oneOf? options =
      (Scan.oneOf? options s).map fun q => (q.value, c.skip (byteSize [q.value])) := by
  cases s with
  | nil => simp [Cursor.oneOf?, h.current?, Scan.oneOf?]
  | cons d r =>
    simp only [Cursor.oneOf?, h.current?, h.advance_cons, List.head?_cons, Option.bind_eq_bind,
      Option.bind_some, Scan.oneOf?]
    split
    · rfl
    · rfl

theorem Between.char? {expected : Char} (h : c.Between front s) :
    c.char? expected = (Scan.oneOf? [expected] s).map fun q => c.skip (byteSize [q.value]) := by
  cases s with
  | nil => simp [Cursor.char?, h.current?, Scan.oneOf?]
  | cons d r =>
    simp only [Cursor.char?, h.current?, h.advance_cons, List.head?_cons, Option.some.injEq,
      Scan.oneOf?, List.mem_singleton]
    split
    · rfl
    · rfl

/-- A run of a cursor starts over at its first character, which must be one of the run. -/
theorem Between.run? (h : c.Between front s) (hstart : ∀ d, start d = true → part d = true) :
    c.run? start part =
      (Scan.run? start part s).map fun q => (.ofList q.value, c.skip (byteSize q.value)) := by
  cases s with
  | nil => simp [Cursor.run?, h.current?, Scan.run?]
  | cons d r =>
    simp only [Cursor.run?, h.current?, h.takeWhile, List.head?_cons, Option.bind_eq_bind,
      Option.bind_some, Scan.run?]
    split
    · rename_i hd
      rw [List.takeWhile_cons_of_pos (hstart d hd)]
      rfl
    · rfl

theorem Between.digits? (h : c.Between front s) : c.digits? = c.run? Char.isDigit Char.isDigit := by
  cases s with
  | nil => simp [Cursor.digits?, Cursor.run?, h.current?, h.takeWhile]
  | cons d r =>
    simp only [Cursor.digits?, Cursor.run?, h.current?, h.takeWhile, List.head?_cons,
      Option.bind_eq_bind, Option.bind_some, List.takeWhile_cons]
    cases hd : d.isDigit with
    | false => simp
    | true => simp

end

/-! ## Steps and runs -/

inductive Step where
  | advance
  | skipBlank
  | char (expected : Char)
  | oneOf (options : List Char)
  | takeWhile (p : Char → Bool)
  | identifier
  | digits
  | columnName

namespace Step

/-- The text that a step gives, if it gives any, and the cursor behind it; none if it fails. -/
def scan? : Step → Cursor → Option (Option String × Cursor)
  | advance, c => some (none, c.advance)
  | skipBlank, c => some (none, c.skipBlank)
  | char expected, c => (c.char? expected).map fun next => (none, next)
  | oneOf options, c => (c.oneOf? options).map fun (d, next) => (some d.toString, next)
  | takeWhile p, c => some (some (c.takeWhile p).1, (c.takeWhile p).2)
  | identifier, c => c.identifier?.map fun (name, next) => (some name, next)
  | digits, c => c.digits?.map fun (ds, next) => (some ds, next)
  | columnName, c => c.columnName?.map fun (name, next) => (some name, next)

/-- The cursor that is left after a step: the old one if the step fails. -/
def move (step : Step) (c : Cursor) : Cursor :=
  match step.scan? c with
  | some (_, next) => next
  | none => c

/-- The texts that a step may take. -/
def Takes : Step → List Char → Prop
  | advance, t => t.length ≤ 1
  | skipBlank, t => IsBlanks t
  | char expected, t => ∃ d ∈ [expected], t = [d]
  | oneOf options, t => ∃ d ∈ options, t = [d]
  | takeWhile p, t => ∀ c ∈ t, p c = true
  | identifier, t => IsIdentifier t
  | digits, t => IsDigits t
  | columnName, t => IsRun isColumnStart isColumnPart t

/-- What a step gives of its text: nothing, all of it, or a name without the spaces at its end. -/
def gives (step : Step) (taken : String) : Option String :=
  match step with
  | advance | skipBlank | char _ => none
  | oneOf _ | takeWhile _ | identifier | digits => some taken
  | columnName => some (.ofList (trimEnd (· == ' ') taken.toList))

end Step

def run (c : Cursor) (steps : List Step) : Cursor :=
  steps.foldl (fun c step => step.move c) c

section
variable {c : Cursor} {front s : List Char}

/-- A step takes the longest of its texts, and fails if none of them stands behind the cursor. -/
theorem Between.scan?_cases (h : c.Between front s) (step : Step) :
    (∃ t, IsLongest step.Takes s t ∧
      step.scan? c = some (step.gives (.ofList t), c.skip (byteSize t))) ∨
    (∀ t, t <+: s → ¬ step.Takes t) ∧ step.scan? c = none := by
  cases step with
  | advance =>
    refine .inl ⟨s.take 1, isLongest_take_one s, ?_⟩
    cases s with
    | nil => simp [Step.scan?, h.advance_nil, Cursor.skip, byteSize, Step.gives]
    | cons d r => simp [Step.scan?, h.advance_cons, Step.gives]
  | skipBlank =>
    refine .inl ⟨s.takeWhile isBlank, isLongest_takeWhile isBlank s, ?_⟩
    simp [Step.scan?, Cursor.skipBlank, h.takeWhile, Step.gives]
  | char expected =>
    simp only [Step.scan?, h.char?]
    cases hq : Scan.oneOf? [expected] s with
    | none => exact .inr ⟨fun t => not_mem_of_oneOf? hq, rfl⟩
    | some q => exact .inl ⟨_, isLongest_of_oneOf? hq, rfl⟩
  | oneOf options =>
    simp only [Step.scan?, h.oneOf?]
    cases hq : Scan.oneOf? options s with
    | none => exact .inr ⟨fun t => not_mem_of_oneOf? hq, rfl⟩
    | some q => exact .inl ⟨_, isLongest_of_oneOf? hq, by simp [Step.gives]⟩
  | takeWhile p =>
    refine .inl ⟨s.takeWhile p, isLongest_takeWhile p s, ?_⟩
    simp [Step.scan?, h.takeWhile, Step.gives]
  | identifier =>
    simp only [Step.scan?, identifier?, h.run? fun _ => isIdentPart_of_isIdentStart]
    cases hq : Scan.run? isIdentStart isIdentPart s with
    | none => exact .inr ⟨fun t => not_isRun_of_run? hq, rfl⟩
    | some q => exact .inl ⟨_, isLongest_of_run? hq, rfl⟩
  | digits =>
    simp only [Step.scan?, h.digits?, h.run? fun _ hd => hd]
    cases hq : Scan.run? Char.isDigit Char.isDigit s with
    | none => exact .inr ⟨fun t => not_isRun_of_run? hq, rfl⟩
    | some q => exact .inl ⟨_, isLongest_of_run? hq, rfl⟩
  | columnName =>
    have hstart : ∀ d, isColumnStart d = true → isColumnPart d = true := by
      intro d hd
      simp [isColumnPart, hd]
    simp only [Step.scan?, columnName?, h.run? hstart]
    cases hq : Scan.run? isColumnStart isColumnPart s with
    | none => exact .inr ⟨fun t => not_isRun_of_run? hq, rfl⟩
    | some q => exact .inl ⟨_, isLongest_of_run? hq, rfl⟩

theorem Between.move (h : c.Between front s) (step : Step) :
    ∃ t r, s = t ++ r ∧ (step.move c).Between (front ++ t) r := by
  obtain ⟨t, ⟨-, ⟨r, rfl⟩, -⟩, hscan⟩ | ⟨-, hscan⟩ := h.scan?_cases step
  · refine ⟨t, r, rfl, ?_⟩
    simp only [Step.move, hscan]
    exact h.skip
  · refine ⟨[], s, rfl, ?_⟩
    simp only [Step.move, hscan, List.append_nil]
    exact h

theorem Between.run (h : c.Between front s) (steps : List Step) :
    ∃ t r, s = t ++ r ∧ (c.run steps).Between (front ++ t) r := by
  induction steps generalizing c front s with
  | nil => exact ⟨[], s, rfl, by rwa [List.append_nil]⟩
  | cons step steps ih =>
    obtain ⟨t, r, rfl, hmove⟩ := h.move step
    obtain ⟨t', r', rfl, hrun⟩ := ih hmove
    exact ⟨t ++ t', r', (List.append_assoc _ _ _).symm, by rwa [← List.append_assoc]⟩

theorem Between.le_run (h : c.Between front s) (steps : List Step) :
    c.position ≤ (c.run steps).position := by
  obtain ⟨t, r, -, hrun⟩ := h.run steps
  rw [h.position, hrun.position, byteSize_append]
  exact Nat.le_add_right _ _

/-- What a step gives is determined by the text between the two offsets. -/
theorem Between.scan?_eq_some_iff (h : c.Between front s) {step : Step} {value : Option String}
    {next : Cursor} :
    step.scan? c = some (value, next) ↔
      ∃ taken, next.text = c.text ∧ slice? c.text c.position next.position = some taken ∧
        IsLongest step.Takes s taken.toList ∧ value = step.gives taken := by
  obtain ⟨t, ht, hscan⟩ | ⟨hnone, hscan⟩ := h.scan?_cases step
  · obtain ⟨r, rfl⟩ := ht.2.1
    rw [hscan]
    constructor
    · rintro ⟨⟩
      exact ⟨.ofList t, rfl, h.slice, by rwa [String.toList_ofList], rfl⟩
    · rintro ⟨taken, hnext, hslice, htaken, rfl⟩
      obtain rfl := htaken.unique ht
      obtain ⟨front', -, -, hstart, hstop⟩ := slice?_eq_some_iff.mp hslice
      obtain ⟨text, position⟩ := next
      obtain rfl : text = c.text := hnext
      obtain rfl : position = c.position + taken.utf8ByteSize := by rw [hstart, ← hstop]
      rw [String.ofList_toList, byteSize, String.ofList_toList]
      rfl
  · rw [hscan]
    refine ⟨fun heq => (nomatch heq), ?_⟩
    rintro ⟨taken, -, -, htaken, -⟩
    exact absurd htaken.1 (hnone _ htaken.2.1)

theorem Between.scan?_eq_none_iff (h : c.Between front s) {step : Step} :
    step.scan? c = none ↔ ∀ t, t <+: s → ¬ step.Takes t := by
  obtain ⟨t, ht, hscan⟩ | ⟨hnone, hscan⟩ := h.scan?_cases step
  · rw [hscan]
    exact ⟨fun heq => (nomatch heq), fun hnone => absurd ht.1 (hnone t ht.2.1)⟩
  · exact ⟨fun _ => hnone, fun _ => hscan⟩

end

end Cursor

/--
Wherever steps lead a cursor from the front of a text, it stands between two characters: its offset
is at most the size of the text and no character lies across it, and the text in front of it and the
remaining one make up the text. No step leads back. The next step takes the longest one of its texts
that stands behind the cursor, and gives nothing else than what lies between the old offset and the
new one; if there is no such text, then it fails and leaves the cursor as it is.
-/
theorem cursor_run_valid (text : String) (steps : List Cursor.Step) :
    let c := (Cursor.ofString text).run steps
    (c.text = text ∧ c.position ≤ text.utf8ByteSize ∧ isBoundary text c.position = true ∧
      slice? text c.position text.utf8ByteSize = some c.remaining ∧
      ∃ front, slice? text 0 c.position = some front ∧ text = front ++ c.remaining) ∧
    (∀ more, c.position ≤ (c.run more).position) ∧
    ∀ step : Cursor.Step,
      (∀ value next, step.scan? c = some (value, next) ↔
        ∃ taken, next.text = text ∧ slice? text c.position next.position = some taken ∧
          IsLongest step.Takes c.remaining.toList taken.toList ∧ value = step.gives taken) ∧
      (step.scan? c = none ↔ ∀ t, t <+: c.remaining.toList → ¬ step.Takes t) ∧
      (step.scan? c = none → step.move c = c) := by
  intro c
  obtain ⟨front, s, hs, hc⟩ := (Cursor.between_ofString text).run steps
  rw [List.nil_append] at hc
  have htext : c.text = text := by rw [hc.text, ← hs, String.ofList_toList]
  have hsplit : text = .ofList front ++ c.remaining := by
    rw [hc.remaining, ← String.ofList_append, ← hc.text, htext]
  have hposition : c.position = (String.ofList front).utf8ByteSize := hc.position
  refine ⟨⟨htext, ?_, ?_, ?_, .ofList front, ?_, hsplit⟩, hc.le_run, fun step => ⟨?_, ?_, ?_⟩⟩
  · rw [hposition, hsplit, String.utf8ByteSize_append]
    exact Nat.le_add_right _ _
  · exact isBoundary_iff.mpr ⟨_, _, hsplit, hposition⟩
  · rw [← htext, hc.slice_remaining, hc.remaining]
  · refine slice?_eq_some_iff.mpr ⟨"", c.remaining, ?_, rfl, ?_⟩
    · rw [String.empty_append]
      exact hsplit
    · rw [hposition]
      exact (Nat.zero_add _).symm
  · intro value next
    rw [hc.scan?_eq_some_iff, htext, hc.remaining, String.toList_ofList]
  · rw [hc.scan?_eq_none_iff, hc.remaining, String.toList_ofList]
  · intro hnone
    simp only [Cursor.Step.move, hnone]

/-- A character of two bytes, and a step that fails behind it. -/
theorem cursor_run_valid_two_bytes :
    let c := (Cursor.ofString "µ s").run [.identifier, .digits]
    c.position = 2 ∧ isBoundary "µ s" c.position = true ∧
    Cursor.Step.scan? .digits c = none ∧ Cursor.Step.move .digits c = c ∧
    2 ≤ (c.run [.skipBlank, .columnName]).position := by
  intro c
  obtain ⟨⟨-, -, hboundary, -, -⟩, hforward, hsteps⟩ :=
    cursor_run_valid "µ s" [.identifier, .digits]
  have hposition : c.position = 2 := by decide
  have hnone : Cursor.Step.scan? .digits c = none := by decide
  refine ⟨hposition, hboundary, hnone, (hsteps .digits).2.2 hnone, ?_⟩
  rw [← hposition]
  exact hforward _

end ColumnCalc
