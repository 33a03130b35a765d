import ColumnCalc.Expr.Parser
import ColumnCalc.Proofs.Expr.Scanning
import ColumnCalc.Proofs.Text.Trimming

/-!
# What the forms of operands read

Each form of an operand says of its own text what it reads: the pieces that it takes from the front,
and the text that is left. `reads_firstOf_iff` says which form an operand is read as: the first one
that reads it at all.
-/

namespace ColumnCalc

open Text Grammar

/-! ## Names -/

theorem reads_expect_iff {c v : Char} {s r : List Char} :
    Reads (Parser.expect c s) v r ↔ v = c ∧ s = c :: r := by
  unfold Parser.expect Reads
  split
  · rename_i p hp
    obtain ⟨hv, hs⟩ := char?_eq_some_iff.mp hp
    simp only [Except.ok.injEq]
    constructor
    · rintro ⟨h, rfl⟩
      exact ⟨hv, hs⟩
    · rintro ⟨rfl, hs'⟩
      obtain ⟨u, rest, hlt⟩ := p
      cases hv
      obtain rfl : rest = r := (List.cons.inj (hs.symm.trans hs')).2
      exact ⟨hlt, rfl⟩
  · rename_i hp
    simp only [reduceCtorEq, exists_false, false_iff]
    rintro ⟨-, rfl⟩
    exact char?_eq_none_iff.mp hp c rfl rfl

theorem isIdentifier_of_identifier {s v r : List Char} (h : Reads (Parser.identifier s) v r) :
    IsIdentifier v ∧ s = v ++ r := by
  obtain ⟨hlt, h⟩ := h
  simp only [Parser.identifier] at h
  split at h
  · rename_i q hq
    cases h
    exact isRun_of_run? hq
  · cases h

theorem reads_identifier {t r : List Char} (ht : IsIdentifier t)
    (hr : ∀ c ∈ r.head?, isIdentPart c = false) : Reads (Parser.identifier (t ++ r)) t r := by
  obtain ⟨h, hrun⟩ := run?_append ht hr
  exact ⟨h, by simp only [Parser.identifier, Scan.identifier?, hrun]⟩

theorem isRun_trimEnd {start part p : Char → Bool} {s : List Char} (hs : IsRun start part s)
    (hp : ∀ c, start c = true → p c = false) : IsRun start part (trimEnd p s) := by
  obtain ⟨u, hu, hsplit⟩ := exists_trimEnd p s
  cases ht : trimEnd p s with
  | nil =>
    -- the first character would have been cut off
    cases s with
    | nil => cases hs
    | cons c r =>
      rw [ht, List.nil_append] at hsplit
      have hc := hu c (hsplit ▸ List.mem_cons_self)
      rw [hp c hs.1] at hc
      cases hc
  | cons c r =>
    rw [hsplit, ht] at hs
    exact ⟨hs.1, fun d hd => hs.2 d (List.mem_append_left _ hd)⟩

theorem not_space_of_isColumnStart (c : Char) (h : isColumnStart c = true) :
    (c == ' ') = false := by
  refine beq_eq_false_iff_ne.mpr ?_
  rintro rfl
  exact absurd h (by decide)

theorem isColumnName_of_columnName? {s : List Char} {p : Parsed (List Char) s}
    (h : Scan.columnName? s = some p) :
    ∃ spaces, IsColumnName p.value ∧ (∀ c ∈ spaces, c = ' ') ∧ s = p.value ++ spaces ++ p.rest := by
  simp only [Scan.columnName?] at h
  obtain ⟨q, hq, rfl⟩ := Option.map_eq_some_iff.mp h
  obtain ⟨hrun, hs⟩ := isRun_of_run? hq
  obtain ⟨spaces, hspaces, hsplit⟩ := exists_trimEnd (· == ' ') q.value
  refine ⟨spaces, ⟨isRun_trimEnd hrun not_space_of_isColumnStart, ?_⟩, ?_, ?_⟩
  · intro hlast
    exact absurd (not_of_getLast?_trimEnd hlast) (by decide)
  · exact fun c hc => eq_of_beq (hspaces c hc)
  · exact hs.trans (congrArg (· ++ q.rest) hsplit)

theorem columnName?_append {t spaces r : List Char} (ht : IsColumnName t)
    (hs : ∀ c ∈ spaces, c = ' ') (hr : ∀ c ∈ r.head?, isColumnPart c = false) :
    ∃ h, Scan.columnName? (t ++ spaces ++ r) = some ⟨t, r, h⟩ := by
  have hrun : IsRun isColumnStart isColumnPart (t ++ spaces) := by
    cases t with
    | nil => cases ht.1
    | cons c t =>
      refine ⟨ht.1.1, fun d hd => ?_⟩
      rcases List.mem_append.mp hd with hd | hd
      · exact ht.1.2 d hd
      · rw [hs d hd]
        decide
  obtain ⟨h, hrun⟩ := run?_append hrun hr
  have htrim : trimEnd (· == ' ') (t ++ spaces) = t := by
    refine trimEnd_append (fun c hc => ?_) fun c hc => beq_iff_eq.mpr (hs c hc)
    refine beq_eq_false_iff_ne.mpr ?_
    rintro rfl
    exact ht.2 hc
  refine ⟨h, ?_⟩
  simp only [Scan.columnName?, hrun, Option.map_some, Parsed.map, htrim]

/-! ## Operands -/

section
variable {s r : List Char} {e : Expr} {inner : Parser.Within s}

theorem reads_closed_iff {opened : Parsed Char s} :
    Reads (Parser.closed opened inner) e r ↔
      ∃ r₁ r₂ h, Reads (inner (skipBlank opened.rest) h) e r₁ ∧ skipBlank r₁ = ')' :: r₂ ∧
        r = skipBlank r₂ := by
  unfold Parser.closed
  constructor
  · intro h
    obtain ⟨v, r₁, _, hvalue, h⟩ := h.of_bind
    obtain ⟨c, r₂, _, hclose, h⟩ := h.of_bind
    obtain ⟨rfl, rfl⟩ := reads_pure_iff.mp h
    exact ⟨r₁, r₂, _, hvalue, (reads_expect_iff.mp hclose).2, rfl⟩
  · rintro ⟨r₁, r₂, _, hvalue, hclose, rfl⟩
    refine hvalue.bind fun _ => ?_
    refine (reads_expect_iff.mpr ⟨rfl, hclose⟩).bind fun _ => ?_
    exact reads_pure_iff.mpr ⟨rfl, rfl⟩

theorem reads_call_iff :
    Reads (Parser.call s inner) e r ↔
      ∃ name r₁ r₂ r₃ r₄ a h, Reads (Parser.identifier s) name r₁ ∧ skipBlank r₁ = '(' :: r₂ ∧
        Reads (inner (skipBlank r₂) h) a r₃ ∧ skipBlank r₃ = ')' :: r₄ ∧
        e = .call (.ofList name) a ∧ r = skipBlank r₄ := by
  unfold Parser.call
  constructor
  · intro h
    obtain ⟨name, r₁, _, hname, h⟩ := h.of_bind
    obtain ⟨c, r₂, _, hopen, h⟩ := h.of_bind
    obtain ⟨a, r', _, hclosed, h⟩ := h.of_bind
    obtain ⟨r₃, r₄, hlt, hinner, hclose, rfl⟩ := reads_closed_iff.mp hclosed
    obtain ⟨rfl, rfl⟩ := reads_pure_iff.mp h
    exact ⟨name, r₁, r₂, r₃, r₄, a, hlt, hname, (reads_expect_iff.mp hopen).2, hinner, hclose, rfl,
      rfl⟩
  · rintro ⟨name, r₁, r₂, r₃, r₄, a, hlt, hname, hopen, hinner, hclose, rfl, rfl⟩
    refine hname.bind fun _ => ?_
    refine (reads_expect_iff.mpr ⟨rfl, hopen⟩).bind fun _ => ?_
    refine (reads_closed_iff.mpr ⟨r₃, r₄, hlt, hinner, hclose, rfl⟩).bind fun _ => ?_
    exact reads_pure_iff.mpr ⟨rfl, rfl⟩

theorem reads_column_iff :
    Reads (Parser.column s) e r ↔
      ∃ r₁ r₂ name h, s = '$' :: r₁ ∧ Scan.columnName? r₁ = some ⟨name, '$' :: r₂, h⟩ ∧
        e = .column (.ofList name) ∧ r = skipBlank r₂ := by
  unfold Parser.column
  constructor
  · intro h
    obtain ⟨c, r₁, _, hopen, h⟩ := h.of_bind
    obtain ⟨-, hs⟩ := reads_expect_iff.mp hopen
    simp only at h
    split at h
    · obtain ⟨_, h⟩ := h
      cases h
    · rename_i name hname
      obtain ⟨c, r₂, _, hclose, h⟩ := h.of_bind
      obtain ⟨-, hrest⟩ := reads_expect_iff.mp hclose
      obtain ⟨rfl, rfl⟩ := reads_pure_iff.mp h
      obtain ⟨name, rest, hlt⟩ := name
      cases hrest
      exact ⟨r₁, r₂, name, hlt, hs, hname, rfl, rfl⟩
  · rintro ⟨r₁, r₂, name, hlt, rfl, hname, rfl, rfl⟩
    refine (reads_expect_iff.mpr ⟨rfl, rfl⟩).bind fun _ => ?_
    simp only [hname]
    refine (reads_expect_iff.mpr ⟨rfl, rfl⟩).bind fun _ => ?_
    exact reads_pure_iff.mpr ⟨rfl, rfl⟩

theorem reads_literal_iff :
    Reads (Parser.literal s) e r ↔
      ∃ l r₁, Reads (Literal.parse s) l r₁ ∧ e = .literal l.value ∧ r = skipBlank r₁ := by
  unfold Parser.literal
  constructor
  · intro h
    obtain ⟨l, r₁, _, hl, h⟩ := h.of_bind
    obtain ⟨rfl, rfl⟩ := reads_pure_iff.mp h
    exact ⟨l, r₁, hl, rfl, rfl⟩
  · rintro ⟨l, r₁, hl, rfl, rfl⟩
    exact hl.bind fun _ => reads_pure_iff.mpr ⟨rfl, rfl⟩

theorem reads_row_iff :
    Reads (Parser.row s) e r ↔ ∃ r₁, s = '#' :: r₁ ∧ e = .row ∧ r = skipBlank r₁ := by
  unfold Parser.row
  constructor
  · intro h
    obtain ⟨c, r₁, _, hmark, h⟩ := h.of_bind
    obtain ⟨rfl, rfl⟩ := reads_pure_iff.mp h
    exact ⟨r₁, (reads_expect_iff.mp hmark).2, rfl, rfl⟩
  · rintro ⟨r₁, rfl, rfl, rfl⟩
    refine (reads_expect_iff.mpr ⟨rfl, rfl⟩).bind fun _ => ?_
    exact reads_pure_iff.mpr ⟨rfl, rfl⟩

theorem reads_parenthesized_iff :
    Reads (Parser.parenthesized s inner) e r ↔
      ∃ r₁ r₂ r₃ h, s = '(' :: r₁ ∧ Reads (inner (skipBlank r₁) h) e r₂ ∧
        skipBlank r₂ = ')' :: r₃ ∧ r = skipBlank r₃ := by
  unfold Parser.parenthesized
  constructor
  · intro h
    obtain ⟨c, r₁, _, hopen, h⟩ := h.of_bind
    obtain ⟨r₂, r₃, hlt, hinner, hclose, rfl⟩ := reads_closed_iff.mp h
    exact ⟨r₁, r₂, r₃, hlt, (reads_expect_iff.mp hopen).2, hinner, hclose, rfl⟩
  · rintro ⟨r₁, r₂, r₃, hlt, rfl, hinner, hclose, rfl⟩
    refine (reads_expect_iff.mpr ⟨rfl, rfl⟩).bind fun _ => ?_
    exact reads_closed_iff.mpr ⟨r₂, r₃, hlt, hinner, hclose, rfl⟩

theorem reads_constant_iff :
    Reads (Parser.constant s) e r ↔
      ∃ name r₁, Reads (Parser.identifier s) name r₁ ∧ e = .constant (.ofList name) ∧
        r = skipBlank r₁ := by
  unfold Parser.constant
  constructor
  · intro h
    obtain ⟨name, r₁, _, hname, h⟩ := h.of_bind
    obtain ⟨rfl, rfl⟩ := reads_pure_iff.mp h
    exact ⟨name, r₁, hname, rfl, rfl⟩
  · rintro ⟨name, r₁, hname, rfl, rfl⟩
    exact hname.bind fun _ => reads_pure_iff.mpr ⟨rfl, rfl⟩

theorem reads_firstOf_cons_iff {furthest : Option ParseError} {alternative : Unit → Parser.Result s}
    {more : List (Unit → Parser.Result s)} :
    Reads (Parser.firstOf s furthest (alternative :: more)) e r ↔ Reads (alternative ()) e r ∨
      ∃ err, alternative () = .error err ∧
        Reads (Parser.firstOf s (some (.further furthest err)) more) e r := by
  rw [Parser.firstOf]
  cases alternative () with
  | ok p => simp
  | error err => simp [Reads]

/-- An alternative reads if it does and no earlier one reads anything. -/
theorem reads_firstOf_iff {furthest : Option ParseError}
    {alternatives : List (Unit → Parser.Result s)} :
    Reads (Parser.firstOf s furthest alternatives) e r ↔
      ∃ earlier a later, alternatives = earlier ++ a :: later ∧
        (∀ b ∈ earlier, ∀ e r, ¬ Reads (b ()) e r) ∧ Reads (a ()) e r := by
  induction alternatives generalizing furthest with
  | nil =>
    constructor
    · rintro ⟨_, h⟩
      cases h
    · rintro ⟨earlier, a, later, h, -⟩
      simp at h
  | cons b more ih =>
    rw [reads_firstOf_cons_iff]
    constructor
    · rintro (hb | ⟨err, herr, hmore⟩)
      · exact ⟨[], b, more, rfl, List.forall_mem_nil _, hb⟩
      · obtain ⟨earlier, a, later, rfl, hearlier, ha⟩ := ih.mp hmore
        have hnone : ∀ e r, ¬ Reads (b ()) e r := not_reads_iff.mpr ⟨err, herr⟩
        exact ⟨b :: earlier, a, later, rfl, List.forall_mem_cons.mpr ⟨hnone, hearlier⟩, ha⟩
    · rintro ⟨earlier, a, later, h, hearlier, ha⟩
      cases earlier with
      | nil =>
        obtain ⟨rfl, -⟩ := List.cons.inj h
        exact .inl ha
      | cons b' earlier =>
        obtain ⟨rfl, rfl⟩ := List.cons.inj h
        obtain ⟨hnone, hearlier⟩ := List.forall_mem_cons.mp hearlier
        obtain ⟨err, herr⟩ := not_reads_iff.mp hnone
        exact .inr ⟨err, herr, ih.mpr ⟨earlier, a, later, rfl, hearlier, ha⟩⟩

end

end ColumnCalc
