import ColumnCalc.Proofs.Expr.Grammar
import ColumnCalc.Proofs.Results
import Mathlib.Data.List.TakeWhile

/-!
# What scanning reads

A scanning step that takes the longest run of a class reads exactly the runs of the grammar behind
which the class does not go on. The parts of a literal follow from that, and with them the literals
as a whole: `Literal.parse` reads the texts of `IsLiteral` and no others.
-/

namespace ColumnCalc

open Text Grammar

variable {α : Type} {s : List Char}

/-- The step reads a value from the front of its text and leaves the rest. -/
def Reads (x : Except ParseError (Parsed α s)) (value : α) (rest : List Char) : Prop :=
  ∃ h, x = .ok ⟨value, rest, h⟩

/-- As `Reads`, for a step that may read nothing. -/
def Passes (x : Except ParseError { p : α × List Char // p.2.length ≤ s.length }) (value : α)
    (rest : List Char) : Prop :=
  ∃ h, x = .ok ⟨(value, rest), h⟩

theorem Reads.of_eq_ok {x : Except ParseError (Parsed α s)} {p : Parsed α s} (h : x = .ok p) :
    Reads x p.value p.rest :=
  ⟨p.rest_lt, h⟩

theorem Passes.of_eq_ok {x : Except ParseError { p : α × List Char // p.2.length ≤ s.length }}
    {p : { p : α × List Char // p.2.length ≤ s.length }} (h : x = .ok p) :
    Passes x p.1.1 p.1.2 :=
  ⟨p.2, h⟩

theorem Reads.unique {x : Except ParseError (Parsed α s)} {v v' : α} {r r' : List Char}
    (h : Reads x v r) (h' : Reads x v' r') : v = v' ∧ r = r' := by
  obtain ⟨_, h⟩ := h
  obtain ⟨_, h'⟩ := h'
  rw [h] at h'
  cases h'
  exact ⟨rfl, rfl⟩

theorem not_reads_iff {x : Except ParseError (Parsed α s)} :
    (∀ v r, ¬ Reads x v r) ↔ ∃ err, x = .error err := by
  cases x with
  | error err => simp [Reads]
  | ok p => exact ⟨fun h => absurd (.of_eq_ok rfl) (h p.value p.rest), fun ⟨_, h⟩ => nomatch h⟩

theorem reads_pure_iff {p : Parsed α s} {v : α} {r : List Char} :
    Reads (pure p) v r ↔ p.value = v ∧ p.rest = r := by
  constructor
  · rintro ⟨hlt, h⟩
    cases h
    exact ⟨rfl, rfl⟩
  · rintro ⟨rfl, rfl⟩
    exact .of_eq_ok rfl

section
variable {β : Type} {t r r' : List Char} {a : α} {v : β} {x : Except ParseError (Parsed α t)}
  {f : Parsed α t → Except ParseError (Parsed β s)}

theorem Reads.bind (hx : Reads x a r') (hf : ∀ h, Reads (f ⟨a, r', h⟩) v r) :
    Reads (x >>= f) v r := by
  obtain ⟨hlt, hx⟩ := hx
  obtain ⟨hlt', hf⟩ := hf hlt
  exact ⟨hlt', bind_eq_ok_iff.mpr ⟨_, hx, hf⟩⟩

theorem Reads.of_bind (h : Reads (x >>= f) v r) :
    ∃ a r' h, Reads x a r' ∧ Reads (f ⟨a, r', h⟩) v r := by
  obtain ⟨hlt, h⟩ := h
  obtain ⟨p, hx, hf⟩ := bind_eq_ok_iff.mp h
  exact ⟨p.value, p.rest, p.rest_lt, .of_eq_ok hx, hlt, hf⟩

end

/-- The text is at its end or goes on with a separator. -/
def Breaks (s : List Char) : Prop :=
  ∀ c ∈ s.head?, IsSeparator c

theorem Breaks.nil : Breaks [] := by
  intro c h
  cases h

theorem Breaks.cons {c : Char} {r : List Char} (h : IsSeparator c) : Breaks (c :: r) := by
  intro d hd
  cases hd
  exact h

theorem Breaks.blanks {b r : List Char} (hb : IsBlanks b) (hr : Breaks r) : Breaks (b ++ r) := by
  cases b with
  | nil => exact hr
  | cons c b => exact .cons (.of_isBlank (hb c (.head b)))

/-! ## Blanks -/

theorem isBlanks_nil : IsBlanks [] := by
  intro c h
  cases h

theorem skipBlank_append {b r : List Char} (hb : IsBlanks b) :
    skipBlank (b ++ r) = skipBlank r := by
  induction b with
  | nil => rfl
  | cons c b ih =>
    have hc : isBlank c = true := hb c (.head b)
    have ih := ih fun d hd => hb d (.tail c hd)
    simp only [skipBlank, List.cons_append, List.dropWhile_cons, hc, if_true] at ih ⊢
    exact ih

theorem skipBlank_cons {c : Char} {r : List Char} (hc : isBlank c = false) :
    skipBlank (c :: r) = c :: r := by
  simp [skipBlank, hc]

/-- What is skipped are blanks. -/
theorem exists_skipBlank (s : List Char) : ∃ b, IsBlanks b ∧ s = b ++ skipBlank s :=
  ⟨s.takeWhile isBlank, fun _ hc => List.mem_takeWhile_imp hc, List.takeWhile_append_dropWhile.symm⟩

/-- What is read behind a character and blanks leaves less than there was in front of them. -/
theorem Reads.length_lt_cons {x : Except ParseError (Parsed α (skipBlank s))} {v : α}
    {r : List Char} (h : Reads x v r) (c : Char) : r.length < (c :: s).length := by
  obtain ⟨hlt, -⟩ := h
  have hle := length_skipBlank_le s
  rw [List.length_cons]
  omega

/-! ## Runs -/

section
variable {start part : Char → Bool} {t r : List Char}

theorem isRun_of_run? {p : Parsed (List Char) s} (h : Scan.run? start part s = some p) :
    IsRun start part p.value ∧ s = p.value ++ p.rest := by
  cases s with
  | nil => cases h
  | cons c r =>
    simp only [Scan.run?] at h
    split at h
    · rename_i hc
      cases h
      exact ⟨⟨hc, fun d hd => List.mem_takeWhile_imp hd⟩, by simp⟩
    · cases h

theorem run?_append (ht : IsRun start part t) (hr : ∀ c ∈ r.head?, part c = false) :
    ∃ h, Scan.run? start part (t ++ r) = some ⟨t, r, h⟩ := by
  cases t with
  | nil => cases ht
  | cons c t =>
    obtain ⟨hc, ht⟩ := ht
    have htake : (t ++ r).takeWhile part = t := by
      rw [List.takeWhile_append_of_pos ht]
      cases r with
      | nil => simp
      | cons d r => simp [hr d rfl]
    have hdrop : (t ++ r).dropWhile part = r := by
      rw [List.dropWhile_append_of_pos ht]
      cases r with
      | nil => rfl
      | cons d r => simp [hr d rfl]
    have hlt : r.length < (c :: t ++ r).length := by
      simp only [List.length_append, List.length_cons]
      omega
    refine ⟨hlt, ?_⟩
    simp only [List.cons_append, Scan.run?, hc, if_true, htake, hdrop]

end

/-! ## Single characters -/

theorem oneOf?_eq_some_iff {options : List Char} {p : Parsed Char s} :
    Scan.oneOf? options s = some p ↔ p.value ∈ options ∧ s = p.value :: p.rest := by
  obtain ⟨c, r, hlt⟩ := p
  cases s with
  | nil => simp [Scan.oneOf?]
  | cons d t =>
    simp only [Scan.oneOf?]
    split
    · rename_i hd
      simp only [Option.some.injEq, Parsed.mk.injEq, List.cons.injEq]
      constructor
      · rintro ⟨rfl, rfl⟩
        exact ⟨hd, rfl, rfl⟩
      · rintro ⟨-, rfl, rfl⟩
        exact ⟨rfl, rfl⟩
    · rename_i hd
      simp only [reduceCtorEq, List.cons.injEq, false_iff]
      rintro ⟨hc, rfl, -⟩
      exact hd hc

theorem oneOf?_eq_none_iff {options : List Char} :
    Scan.oneOf? options s = none ↔ ∀ c ∈ s.head?, c ∉ options := by
  cases s with
  | nil => simp [Scan.oneOf?]
  | cons c r => simp [Scan.oneOf?]

theorem char?_eq_some_iff {c : Char} {p : Parsed Char s} :
    Scan.char? c s = some p ↔ p.value = c ∧ s = c :: p.rest := by
  simp only [Scan.char?, oneOf?_eq_some_iff, List.mem_singleton]
  constructor
  · rintro ⟨rfl, hs⟩
    exact ⟨rfl, hs⟩
  · rintro ⟨rfl, hs⟩
    exact ⟨rfl, hs⟩

theorem char?_eq_none_iff {c : Char} : Scan.char? c s = none ↔ ∀ d ∈ s.head?, d ≠ c := by
  simp only [Scan.char?, oneOf?_eq_none_iff, List.mem_singleton]

/-! ## Literals -/

theorem not_isDigit_of_breaks {r : List Char} (h : Breaks r) :
    ∀ c ∈ r.head?, c.isDigit = false := by
  intro c hc
  refine Bool.eq_false_iff.mpr fun hd => ?_
  have := (h c hc).1
  rw [isIdentPart_of_isDigit hd] at this
  cases this

theorem reads_digits {part : LiteralPart} {ds r : List Char} (hd : IsDigits ds)
    (hr : ∀ c ∈ r.head?, c.isDigit = false) : Reads (Literal.digits part (ds ++ r)) ds r := by
  obtain ⟨h, hrun⟩ := run?_append hd hr
  exact ⟨h, by simp only [Literal.digits, Scan.digits?, hrun]⟩

theorem isDigits_of_digits {part : LiteralPart} {p : Parsed (List Char) s}
    (h : Literal.digits part s = .ok p) : IsDigits p.value ∧ s = p.value ++ p.rest := by
  simp only [Literal.digits] at h
  split at h
  · rename_i q hq
    cases h
    exact isRun_of_run? hq
  · cases h

theorem isSign_sign (s : List Char) :
    ∃ t, IsSign t (Literal.sign s).1 ∧ s = t ++ (Literal.sign s).2 := by
  unfold Literal.sign
  split
  · exact ⟨_, .minus, rfl⟩
  · exact ⟨_, .plus, rfl⟩
  · exact ⟨_, .absent, rfl⟩

theorem sign_append {t ds r : List Char} {negative : Bool} (ht : IsSign t negative)
    (hd : IsDigits ds) : Literal.sign (t ++ (ds ++ r)) = (negative, ds ++ r) := by
  cases ht with
  | plus => rfl
  | minus => rfl
  | absent =>
    obtain ⟨c, ds, rfl, hc⟩ := isRun_head hd
    simp only [List.nil_append, List.cons_append]
    unfold Literal.sign
    split
    · rename_i heq
      cases heq
      exact absurd hc (by decide)
    · rename_i heq
      cases heq
      exact absurd hc (by decide)
    · rfl

theorem isFraction_of_fractionPart {p : { p : List Char × List Char // p.2.length ≤ s.length }}
    (h : Literal.fractionPart s = .ok p) : ∃ t, IsFraction t p.1.1 ∧ s = t ++ p.1.2 := by
  simp only [Literal.fractionPart] at h
  split at h
  · cases h
    exact ⟨_, .absent, rfl⟩
  · rename_i dot hdot
    obtain ⟨ds, hds, h⟩ := bind_eq_ok_iff.mp h
    cases h
    obtain ⟨hd, hs⟩ := isDigits_of_digits hds
    exact ⟨_, .present hd, (char?_eq_some_iff.mp hdot).2.trans (congrArg _ hs)⟩

theorem passes_fractionPart {t f r : List Char} (ht : IsFraction t f)
    (hr : ∀ c ∈ r.head?, c.isDigit = false ∧ c ≠ '.') :
    Passes (Literal.fractionPart (t ++ r)) f r := by
  cases ht with
  | absent =>
    have hdot : Scan.char? '.' r = none := char?_eq_none_iff.mpr fun c hc => (hr c hc).2
    refine ⟨Nat.le_refl _, ?_⟩
    simp only [List.nil_append, Literal.fractionPart, hdot]
  | present hd =>
    have hdot : Scan.char? '.' ('.' :: (f ++ r)) = some ⟨'.', f ++ r, by simp⟩ :=
      char?_eq_some_iff.mpr ⟨rfl, rfl⟩
    obtain ⟨h, hds⟩ : Reads (Literal.digits .fraction (f ++ r)) f r :=
      reads_digits hd fun c hc => (hr c hc).1
    have hle : r.length ≤ ('.' :: f ++ r).length := by
      simp only [List.length_append, List.length_cons]
      omega
    refine ⟨hle, ?_⟩
    simp only [List.cons_append, Literal.fractionPart, hdot, hds]
    rfl

theorem isPower_of_powerPart
    {p : { p : (Bool × List Char) × List Char // p.2.length ≤ s.length }}
    (h : Literal.powerPart s = .ok p) : ∃ t, IsPower t p.1.1.1 p.1.1.2 ∧ s = t ++ p.1.2 := by
  simp only [Literal.powerPart] at h
  split at h
  · cases h
    exact ⟨_, .absent, rfl⟩
  · rename_i mark hmark
    obtain ⟨ds, hds, h⟩ := bind_eq_ok_iff.mp h
    cases h
    obtain ⟨hd, hs⟩ := isDigits_of_digits hds
    obtain ⟨t, ht, hsign⟩ := isSign_sign mark.rest
    refine ⟨_, .present ht hd, ?_⟩
    calc s = 'e' :: mark.rest := (char?_eq_some_iff.mp hmark).2
      _ = 'e' :: (t ++ (ds.value ++ ds.rest)) := congrArg _ (hsign.trans (congrArg _ hs))
      _ = 'e' :: (t ++ ds.value) ++ ds.rest := by simp

theorem passes_powerPart {t ds r : List Char} {negative : Bool} (ht : IsPower t negative ds)
    (hr : Breaks r) : Passes (Literal.powerPart (t ++ r)) (negative, ds) r := by
  cases ht with
  | absent =>
    have hmark : Scan.char? 'e' r = none := by
      refine char?_eq_none_iff.mpr fun c hc => ?_
      rintro rfl
      exact absurd (hr _ hc).1 (by decide)
    refine ⟨Nat.le_refl _, ?_⟩
    simp only [List.nil_append, Literal.powerPart, hmark]
  | @present sign ds _ hsign hd =>
    have hmark : Scan.char? 'e' ('e' :: (sign ++ (ds ++ r)))
        = some ⟨'e', sign ++ (ds ++ r), by simp⟩ := char?_eq_some_iff.mpr ⟨rfl, rfl⟩
    have hsigned := sign_append (r := r) hsign hd
    obtain ⟨h, hds⟩ :
        Reads (Literal.digits .exponent (Literal.sign (sign ++ (ds ++ r))).2) ds r := by
      rw [hsigned]
      exact reads_digits hd (not_isDigit_of_breaks hr)
    rw [List.cons_append, List.append_assoc]
    have hle : r.length ≤ ('e' :: (sign ++ (ds ++ r))).length := by
      simp only [List.length_append, List.length_cons]
      omega
    refine ⟨hle, ?_⟩
    simp only [Literal.powerPart, hmark, hds, bind, Except.bind, hsigned]
    rfl

/-- What `Literal.parse` reads is a literal. -/
theorem isLiteral_of_parse {p : Parsed Literal s} (h : Literal.parse s = .ok p) :
    ∃ t, IsLiteral t p.value ∧ s = t ++ p.rest := by
  simp only [Literal.parse] at h
  obtain ⟨whole, hwhole, h⟩ := bind_eq_ok_iff.mp h
  obtain ⟨fraction, hfraction, h⟩ := bind_eq_ok_iff.mp h
  obtain ⟨power, hpower, h⟩ := bind_eq_ok_iff.mp h
  cases h
  obtain ⟨sign, hsign, hs⟩ := isSign_sign s
  obtain ⟨hd, hs'⟩ := isDigits_of_digits hwhole
  obtain ⟨point, hpoint, hs''⟩ := isFraction_of_fractionPart hfraction
  obtain ⟨mark, hmark, hs'''⟩ := isPower_of_powerPart hpower
  refine ⟨_, .mk hsign hd hpoint hmark, ?_⟩
  calc s = sign ++ (Literal.sign s).2 := hs
    _ = sign ++ (whole.value ++ (point ++ (mark ++ power.1.2))) :=
      congrArg _ (hs'.trans (congrArg _ (hs''.trans (congrArg _ hs'''))))
    _ = sign ++ whole.value ++ point ++ mark ++ power.1.2 := by simp

/-- A literal in front of a separator is read as a whole. -/
theorem reads_literal {t r : List Char} {l : Literal} (ht : IsLiteral t l) (hr : Breaks r) :
    Reads (Literal.parse (t ++ r)) l r := by
  obtain @⟨sign, whole, point, fraction, mark, power, _, _, hsign, hwhole, hpoint, hmark⟩ := ht
  have hfront : ∀ c ∈ (mark ++ r).head?, c.isDigit = false ∧ c ≠ '.' := by
    cases hmark with
    | absent => exact fun c hc => ⟨not_isDigit_of_breaks hr c hc, (hr c hc).2⟩
    | present _ _ =>
      intro c hc
      cases hc
      decide
  have hdigits : ∀ c ∈ (point ++ (mark ++ r)).head?, c.isDigit = false := by
    cases hpoint with
    | absent => exact fun c hc => (hfront c hc).1
    | present _ =>
      intro c hc
      cases hc
      decide
  have hsigned := sign_append (r := point ++ (mark ++ r)) hsign hwhole
  have hshape : sign ++ whole ++ point ++ mark ++ r
      = sign ++ (whole ++ (point ++ (mark ++ r))) := by simp
  obtain ⟨hw, hwhole'⟩ :
      Reads (Literal.digits .whole (Literal.sign (sign ++ (whole ++ (point ++ (mark ++ r))))).2)
        whole (point ++ (mark ++ r)) := by
    rw [hsigned]
    exact reads_digits hwhole hdigits
  obtain ⟨hp, hpoint'⟩ := passes_fractionPart hpoint hfront
  obtain ⟨hm, hmark'⟩ := passes_powerPart hmark hr
  rw [hshape]
  have hlt : r.length < (sign ++ (whole ++ (point ++ (mark ++ r)))).length := by
    have := Nat.lt_of_lt_of_le hw (Literal.length_sign_le _)
    simp only [List.length_append] at this ⊢
    omega
  refine ⟨hlt, ?_⟩
  simp only [Literal.parse, hwhole', hpoint', hmark', bind, Except.bind, hsigned]
  rfl

end ColumnCalc
