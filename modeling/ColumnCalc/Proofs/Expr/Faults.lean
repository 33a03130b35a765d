import ColumnCalc.Proofs.Expr.Reading
import Mathlib.Data.List.Chain

/-!
# Where reading fails

An expression fails at an operand, and the error stands in front of the whole operand, whatever form
was tried. What comes behind it in the error is what the one form met that got past the first
character. A name is never such a form, because it can be read as a constant: so the faults of a
call are lost, and no error tells of a name, a parenthesis or a row index that is missing.

* `FailsAtOperand`: the text in front of an error lacks nothing but an operand (`Awaits`), and the
  faults of the error are met further and further on in the text (`ParseError.Advances`).
* `fails_level`: if operands are read so, all levels of operators are. `blocks_of_expression` closes
  the circle through the parentheses, by recursion on the length of the text.
-/

namespace ColumnCalc

open Text Grammar
open ColumnCalc.Parser (Upto Within)

/-! ## Faults of one error -/

/-- No form of operand matched at the first fault, and the second one lies further on. -/
def Fault.Precedes (f g : Fault) : Prop :=
  f.kind = .noAlternative ∧ g.rest <:+ f.rest ∧ g.rest.length < f.rest.length

/-- The kinds of the faults in errors. No name, no opening parenthesis and no `#` is missing. -/
def FaultKind.Surfaces : FaultKind → Prop
  | .noAlternative | .trailingInput | .literal _ | .columnName => True
  | .identifier => False
  | .expected c => c = ')' ∨ c = '$'

/-- The faults of an error are met one behind the other in the text. -/
structure ParseError.Advances (err : ParseError) (s : List Char) : Prop where
  suffix : err.rest <:+ s
  chain : err.chain.IsChain Fault.Precedes
  surfaces : ∀ f ∈ err.chain, f.kind.Surfaces

namespace ParseError

variable {s t r : List Char} {err : ParseError} {kind : FaultKind}

theorem Advances.mono (h : err.Advances t) (hts : t <:+ s) : err.Advances s :=
  ⟨h.suffix.trans hts, h.chain, h.surfaces⟩

theorem advances_single (hr : r <:+ s) (hkind : kind.Surfaces) : (single kind r).Advances s := by
  refine ⟨hr, List.isChain_singleton _, fun f hf => ?_⟩
  obtain rfl := List.mem_singleton.mp hf
  exact hkind

@[simp]
theorem rest_noAlternative (s : List Char) (furthest : Option ParseError) :
    (noAlternative s furthest).rest = s := by
  cases furthest <;> rfl

@[simp]
theorem kind_noAlternative (s : List Char) (furthest : Option ParseError) :
    (noAlternative s furthest).kind = .noAlternative := by
  cases furthest <;> rfl

theorem advances_noAlternative {furthest : Option ParseError}
    (h : ∀ e ∈ furthest, e.rest.length < s.length → e.Advances s) :
    (noAlternative s furthest).Advances s := by
  cases furthest with
  | none => exact advances_single s.suffix_rfl trivial
  | some e =>
    by_cases hlt : e.rest.length < s.length
    · have he := h e rfl hlt
      have hchain : (noAlternative s (some e)).chain = ⟨.noAlternative, s⟩ :: e.chain := by
        simp only [noAlternative, chain, if_pos hlt]
      refine ⟨s.suffix_rfl, ?_, ?_⟩
      · rw [hchain]
        exact .cons_cons ⟨rfl, he.suffix, hlt⟩ he.chain
      · rw [hchain, List.forall_mem_cons]
        exact ⟨trivial, he.surfaces⟩
    · have hsingle : noAlternative s (some e) = single .noAlternative s := by
        simp only [noAlternative, if_neg hlt, single]
      rw [hsingle]
      exact advances_single s.suffix_rfl trivial

theorem further_cases (furthest : Option ParseError) (e : ParseError) :
    further furthest e = e ∨ furthest = some (further furthest e) := by
  cases furthest with
  | none => exact .inl rfl
  | some f =>
    simp only [further]
    split
    · exact .inl rfl
    · exact .inr rfl

end ParseError

open ParseError (advances_single advances_noAlternative)

/-! ## Faults of the forms of operands -/

section
variable {s t r : List Char} {e : Expr} {err : ParseError}

theorem expect_eq_error {c : Char} (h : Parser.expect c s = .error err) :
    err = .single (.expected c) s := by
  unfold Parser.expect at h
  split at h
  · cases h
  · cases h
    rfl

theorem expect_suffix {c : Char} {p : Parsed Char s} (h : Parser.expect c s = .ok p) :
    p.rest <:+ s := by
  obtain ⟨-, hs⟩ := reads_expect_iff.mp (.of_eq_ok h)
  exact ⟨[c], hs.symm⟩

theorem identifier_eq_error (h : Parser.identifier s = .error err) :
    err = .single .identifier s := by
  unfold Parser.identifier at h
  split at h
  · cases h
  · cases h
    rfl

theorem digits_eq_error {part : LiteralPart} (h : Literal.digits part s = .error err) :
    err = .single (.literal part) s := by
  unfold Literal.digits at h
  split at h
  · cases h
  · cases h
    rfl

theorem char?_suffix {c : Char} {p : Parsed Char s} (h : Scan.char? c s = some p) :
    p.rest <:+ s :=
  ⟨[c], (char?_eq_some_iff.mp h).2.symm⟩

theorem sign_suffix (s : List Char) : (Literal.sign s).2 <:+ s := by
  obtain ⟨t, -, hs⟩ := isSign_sign s
  exact ⟨t, hs.symm⟩

theorem advances_of_fractionPart (h : Literal.fractionPart s = .error err) : err.Advances s := by
  unfold Literal.fractionPart at h
  split at h
  · cases h
  · rename_i dot hdot
    obtain h | ⟨ds, -, h⟩ := bind_eq_error_iff.mp h
    · rw [digits_eq_error h]
      exact advances_single (char?_suffix hdot) trivial
    · cases h

theorem advances_of_powerPart (h : Literal.powerPart s = .error err) : err.Advances s := by
  unfold Literal.powerPart at h
  split at h
  · cases h
  · rename_i mark hmark
    obtain h | ⟨ds, -, h⟩ := bind_eq_error_iff.mp h
    · rw [digits_eq_error h]
      exact advances_single ((sign_suffix _).trans (char?_suffix hmark)) trivial
    · cases h

theorem advances_of_parse (h : Literal.parse s = .error err) : err.Advances s := by
  unfold Literal.parse at h
  obtain h | ⟨whole, hwhole, h⟩ := bind_eq_error_iff.mp h
  · rw [digits_eq_error h]
    exact advances_single (sign_suffix s) trivial
  obtain ⟨-, hs⟩ := isDigits_of_digits hwhole
  have hbehind : whole.rest <:+ s := .trans ⟨_, hs.symm⟩ (sign_suffix s)
  obtain h | ⟨fraction, hfraction, h⟩ := bind_eq_error_iff.mp h
  · exact (advances_of_fractionPart h).mono hbehind
  obtain ⟨point, -, hs'⟩ := isFraction_of_fractionPart hfraction
  obtain h | ⟨power, -, h⟩ := bind_eq_error_iff.mp h
  · exact (advances_of_powerPart h).mono (.trans ⟨_, hs'.symm⟩ hbehind)
  · cases h

theorem advances_of_literal (h : Parser.literal s = .error err) : err.Advances s := by
  unfold Parser.literal at h
  obtain h | ⟨l, -, h⟩ := bind_eq_error_iff.mp h
  · exact advances_of_parse h
  · cases h

theorem advances_of_column (h : Parser.column s = .error err) (hlt : err.rest.length < s.length) :
    err.Advances s := by
  unfold Parser.column at h
  obtain h | ⟨opened, hopened, h⟩ := bind_eq_error_iff.mp h
  · rw [expect_eq_error h] at hlt
    exact absurd hlt (Nat.lt_irrefl _)
  have hbehind := expect_suffix hopened
  split at h
  · cases h
    exact advances_single hbehind trivial
  · rename_i name hname
    obtain ⟨spaces, -, -, hs⟩ := isColumnName_of_columnName? hname
    obtain h | ⟨close, -, h⟩ := bind_eq_error_iff.mp h
    · rw [expect_eq_error h]
      exact advances_single (.trans ⟨_, hs.symm⟩ hbehind) (.inr rfl)
    · cases h

theorem rest_of_row (h : Parser.row s = .error err) : err.rest = s := by
  unfold Parser.row at h
  obtain h | ⟨mark, -, h⟩ := bind_eq_error_iff.mp h
  · rw [expect_eq_error h]
    rfl
  · cases h

theorem rest_of_constant (h : Parser.constant s = .error err) : err.rest = s := by
  unfold Parser.constant at h
  obtain h | ⟨name, -, h⟩ := bind_eq_error_iff.mp h
  · rw [identifier_eq_error h]
    rfl
  · cases h

/-- What is no constant has no name that a call could begin with. -/
theorem rest_of_call {inner : Within s} {err' : ParseError} (h : Parser.call s inner = .error err)
    (hconstant : Parser.constant s = .error err') : err.rest = s := by
  unfold Parser.call at h
  obtain h | ⟨name, hname, -⟩ := bind_eq_error_iff.mp h
  · rw [identifier_eq_error h]
    rfl
  · unfold Parser.constant at hconstant
    rw [hname] at hconstant
    cases hconstant

theorem advances_of_closed {inner : Within s} {opened : Parsed Char s}
    (hsound : Sound (some .additive) inner)
    (hinner : ∀ t h err, inner t h = .error err → err.Advances t)
    (h : Parser.closed opened inner = .error err) : err.Advances opened.rest := by
  unfold Parser.closed at h
  have hskip : opened.skipBlank.rest <:+ opened.rest := skipBlank_isSuffix _
  obtain h | ⟨value, hvalue, h⟩ := bind_eq_error_iff.mp h
  · exact (hinner _ _ _ h).mono hskip
  have hbehind : value.rest <:+ opened.rest :=
    (hsound _ _ _ _ (.of_eq_ok hvalue)).suffix.trans hskip
  obtain h | ⟨close, -, h⟩ := bind_eq_error_iff.mp h
  · rw [expect_eq_error h]
    exact advances_single ((skipBlank_isSuffix _).trans hbehind) (.inl rfl)
  · cases h

theorem advances_of_parenthesized {inner : Within s} (hsound : Sound (some .additive) inner)
    (hinner : ∀ t h err, inner t h = .error err → err.Advances t)
    (h : Parser.parenthesized s inner = .error err) (hlt : err.rest.length < s.length) :
    err.Advances s := by
  unfold Parser.parenthesized at h
  obtain h | ⟨opened, hopened, h⟩ := bind_eq_error_iff.mp h
  · rw [expect_eq_error h] at hlt
    exact absurd hlt (Nat.lt_irrefl _)
  · exact (advances_of_closed hsound hinner h).mono (expect_suffix hopened)

/-- All forms have failed, and the fault that is kept is one of theirs. -/
theorem firstOf_eq_error {furthest : Option ParseError}
    {alternatives : List (Unit → Parser.Result s)}
    (h : Parser.firstOf s furthest alternatives = .error err) :
    (∀ a ∈ alternatives, ∃ e, a () = .error e) ∧
    ∃ kept, err = .noAlternative s kept ∧
      ∀ e ∈ kept, furthest = some e ∨ ∃ a ∈ alternatives, a () = .error e := by
  induction alternatives generalizing furthest with
  | nil =>
    cases h
    exact ⟨List.forall_mem_nil _, furthest, rfl, fun e he => .inl he⟩
  | cons a more ih =>
    unfold Parser.firstOf at h
    cases ha : a () with
    | ok p =>
      rw [ha] at h
      cases h
    | error e =>
      rw [ha] at h
      obtain ⟨hmore, kept, herr, hkept⟩ := ih h
      refine ⟨List.forall_mem_cons.mpr ⟨⟨e, ha⟩, hmore⟩, kept, herr, fun e' he' => ?_⟩
      obtain hfurther | ⟨b, hb, hb'⟩ := hkept e' he'
      · cases hfurther
        rcases ParseError.further_cases furthest e with heq | heq
        · rw [heq]
          exact .inr ⟨a, .head _, ha⟩
        · exact .inl heq
      · exact .inr ⟨b, .tail _ hb, hb'⟩

end

/-! ## Faults of expressions -/

/-- Whatever operand is put behind the text, the two together are an expression of the level. -/
def Awaits (level : Option Level) (q : List Char) : Prop :=
  ∀ t e, IsValue none t e → ∃ e', IsValue level (q ++ t) e'

/-- What an error says about the text of a level that could not be read. -/
structure ParseError.Blocks (err : ParseError) (level : Option Level) (s : List Char) : Prop where
  kind : err.kind = .noAlternative
  advances : err.Advances s
  awaits : ∃ q, s = q ++ err.rest ∧ Awaits level q

/-- A fault stays one behind a text that takes up what awaits an operand. -/
theorem ParseError.Blocks.behind {err : ParseError} {level level' : Option Level}
    {front s : List Char} (h : err.Blocks level s)
    (hfront : ∀ q, Awaits level q → Awaits level' (front ++ q)) :
    err.Blocks level' (front ++ s) := by
  obtain ⟨q, hq, hawaits⟩ := h.awaits
  refine ⟨h.kind, h.advances.mono (List.suffix_append _ _), front ++ q, ?_, hfront q hawaits⟩
  rw [List.append_assoc, ← hq]

/-- A parser that fails in front of an operand only. -/
def FailsAtOperand {domain : List Char → Prop} (level : Option Level)
    (p : (s : List Char) → domain s → Parser.Result s) : Prop :=
  ∀ s h err, p s h = .error err → err.Blocks level s

theorem fails_operand {s : List Char} {inner : Within s} {err : ParseError}
    (hsound : Sound (some .additive) inner)
    (hinner : ∀ t h err, inner t h = .error err → err.Advances t)
    (h : Parser.operand s inner = .error err) : err.Blocks none s := by
  obtain ⟨hall, kept, rfl, hkept⟩ := firstOf_eq_error h
  have hrest := ParseError.rest_noAlternative s kept
  refine ⟨ParseError.kind_noAlternative s kept, ?_, [], hrest.symm, fun t e ht => ⟨e, ht⟩⟩
  refine advances_noAlternative fun e he hlt => ?_
  have hstays : e.rest ≠ s := by
    rintro heq
    rw [heq] at hlt
    exact Nat.lt_irrefl _ hlt
  -- The constant failed as well: no name stands here, and the call has not got past one.
  obtain ⟨_, hconstant⟩ := hall (fun _ => Parser.constant s) (by simp)
  obtain hnone | ⟨form, hform, herror⟩ := hkept e he
  · cases hnone
  simp only [List.mem_cons, List.not_mem_nil, or_false] at hform
  obtain rfl | rfl | rfl | rfl | rfl | rfl := hform
  · exact absurd (rest_of_call herror hconstant) hstays
  · exact advances_of_column herror hlt
  · exact advances_of_literal herror
  · exact absurd (rest_of_row herror) hstays
  · exact advances_of_parenthesized hsound hinner herror hlt
  · exact absurd (rest_of_constant herror) hstays

section
variable {n : Nat} {level : Level} {p : Upto n}

theorem Awaits.tighter {q : List Char} (h : Awaits level.tighter q) : Awaits (some level) q := by
  intro t e ht
  obtain ⟨e', he'⟩ := h t e ht
  exact ⟨e', .lift he'⟩

theorem Awaits.binary {t b b' q : List Char} {e : Expr} {op : Char} (ht : IsValue (some level) t e)
    (hb : IsBlanks b) (hop : op ∈ level.operators) (hb' : IsBlanks b')
    (hq : Awaits level.tighter q) : Awaits (some level) (t ++ b ++ op :: b' ++ q) := by
  intro u e' hu
  obtain ⟨e'', he''⟩ := hq u e' hu
  have hsplit : t ++ b ++ op :: b' ++ q ++ u = t ++ b ++ op :: (b' ++ (q ++ u)) := by simp
  rw [hsplit]
  exact ⟨_, .binary ht hb hop hb' he''⟩

theorem operations_eq_error {operators s : List Char} {left : Expr} {err : ParseError}
    {h : s.length ≤ n} (herror : Parser.operations operators p left s h = .error err) :
    ∃ op r₁ h₁, op ∈ operators ∧ s = op :: r₁ ∧
      (p (skipBlank r₁) h₁ = .error err ∨ ∃ right r₂ h₂, Reads (p (skipBlank r₁) h₁) right r₂ ∧
        Parser.operations operators p (.binary left op right) r₂ h₂ = .error err) := by
  rw [Parser.operations] at herror
  split at herror
  · cases herror
  rename_i op hop
  obtain ⟨hmem, hs⟩ := oneOf?_eq_some_iff.mp hop
  have hlen : (skipBlank op.rest).length ≤ n := Nat.le_trans (Nat.le_of_lt op.skipBlank.rest_lt) h
  refine ⟨op.value, op.rest, hlen, hmem, hs, ?_⟩
  obtain herror | ⟨right, hright, herror⟩ := bind_eq_error_iff.mp herror
  · exact .inl herror
  · obtain herror | ⟨more, -, herror⟩ := bind_eq_error_iff.mp herror
    · exact .inr ⟨_, _, _, .of_eq_ok hright, herror⟩
    · cases herror

/-- Operations fail in front of a right operand; what was read before is the left one. -/
theorem fails_operations (hsound : Sound level.tighter p) (hp : FailsAtOperand level.tighter p)
    {s t b : List Char} {left : Expr} {err : ParseError} {h : s.length ≤ n}
    (ht : IsValue (some level) t left) (hb : IsBlanks b)
    (herror : Parser.operations level.operators p left s h = .error err) :
    err.Blocks (some level) (t ++ b ++ s) := by
  obtain ⟨op, r₁, h₁, hop, rfl, hnext⟩ := operations_eq_error herror
  obtain ⟨b₁, hb₁, hr₁⟩ := exists_skipBlank r₁
  obtain herror | ⟨right, r₂, h₂, hright, herror⟩ := hnext
  · have hsplit : t ++ b ++ op :: r₁ = t ++ b ++ op :: b₁ ++ skipBlank r₁ := by
      conv_lhs => rw [hr₁]
      simp
    rw [hsplit]
    exact (hp _ _ _ herror).behind fun q hq => .binary ht hb hop hb₁ hq
  · obtain ⟨u, b₂, hu, hb₂, hsplit⟩ := hsound _ _ _ _ hright
    have hlt := hright.length_lt_cons op
    have hs : t ++ b ++ op :: r₁ = t ++ b ++ op :: (b₁ ++ u) ++ b₂ ++ r₂ := by
      rw [hr₁, hsplit]
      simp
    rw [hs]
    exact fails_operations hsound hp (.binary ht hb hop hb₁ hu) hb₂ herror
termination_by s.length

theorem fails_chain (hsound : Sound level.tighter p) (hp : FailsAtOperand level.tighter p) :
    FailsAtOperand (some level) (Parser.chain level.operators p) := by
  intro s h err herror
  unfold Parser.chain at herror
  obtain herror | ⟨first, hfirst, herror⟩ := bind_eq_error_iff.mp herror
  · rw [← List.nil_append s]
    exact (hp _ _ _ herror).behind fun _ => Awaits.tighter
  · obtain ⟨t, b, ht, hb, hs⟩ := hsound _ _ _ _ (.of_eq_ok hfirst)
    obtain herror | ⟨all, -, herror⟩ := bind_eq_error_iff.mp herror
    · rw [hs]
      exact fails_operations hsound hp (.lift ht) hb herror
    · cases herror

theorem fails_level (hsound : Sound none p) (hp : FailsAtOperand none p) (level : Level) :
    FailsAtOperand (some level) (Parser.level p level) :=
  (level_of_chain (P := fun level p => Sound level p ∧ FailsAtOperand level p)
    (fun _ _ h => ⟨sound_chain h.1, fails_chain h.1 h.2⟩) ⟨hsound, hp⟩ level).2

end

theorem blocks_of_expression {s : List Char} {err : ParseError}
    (h : Parser.expression s = .error err) : err.Blocks (some .additive) s := by
  rw [Parser.expression] at h
  -- An operand reads expressions only behind its opening parenthesis, so of shorter texts.
  refine fails_level (fun t ht e r h => ?_) (fun t ht err h => ?_) .additive _ _ _ h
  · exact starts_of_reads_operand (fun u hu e r h => sound_expression h) h
  · refine fails_operand (fun u hu e r h => sound_expression h) (fun u hu err h => ?_) h
    exact (blocks_of_expression h).advances
termination_by s.length

end ColumnCalc
