import ColumnCalc.Proofs.Expr.Faults

/-!
# The errors of whole texts

A text is not read if an operand is missing in its expression, or if something follows the
expression. Either way the error divides the text: what stands in front of the fault is whole, or
lacks one operand (`parse_error_splits`). Behind the first fault lie the others, each further on
than the one before (`parse_error_advances`).
-/

namespace ColumnCalc

open Text Grammar
open ColumnCalc.ParseError (advances_single)

section
variable {s t b : List Char} {e : Expr} {err : ParseError}

theorem atEnd_eq_error_iff :
    Parser.atEnd s = .error err ↔
      skipBlank s ≠ [] ∧ err = .single .trailingInput (skipBlank s) := by
  unfold Parser.atEnd
  split
  · rename_i h
    simp [List.isEmpty_iff.mp h]
  · rename_i h
    rw [List.isEmpty_iff] at h
    simp [h, eq_comm]

/-- A text is no expression if none can be read from its front or if something follows it. -/
theorem whole_eq_error_iff :
    Parser.whole s = .error err ↔ Parser.expression s = .error err ∨
      ∃ e r, Reads (Parser.expression s) e r ∧ skipBlank r ≠ [] ∧
        err = .single .trailingInput (skipBlank r) := by
  unfold Parser.whole
  rw [bind_eq_error_iff]
  refine or_congr_right ⟨?_, ?_⟩
  · rintro ⟨p, hread, h⟩
    obtain h | ⟨_, _, h⟩ := bind_eq_error_iff.mp h
    · exact ⟨p.value, p.rest, .of_eq_ok hread, atEnd_eq_error_iff.mp h⟩
    · cases h
  · rintro ⟨e, r, ⟨hlt, hread⟩, hend⟩
    exact ⟨_, hread, bind_eq_error_iff.mpr (.inl (atEnd_eq_error_iff.mpr hend))⟩

theorem advances_of_whole (h : Parser.whole s = .error err) : err.Advances s := by
  obtain h | ⟨e, r, hread, -, rfl⟩ := whole_eq_error_iff.mp h
  · exact (blocks_of_expression h).advances
  · exact advances_single ((skipBlank_isSuffix r).trans (sound_expression hread).suffix) trivial

/-! ## The text in front of a fault -/

theorem isExpression_append {b t : List Char} (hb : IsBlanks b) (h : IsExpression t e) :
    IsExpression (b ++ t) e := by
  obtain ⟨hb₁, ht, hb₂⟩ := h
  simp only [← List.append_assoc]
  exact .mk (isBlanks_append hb hb₁) ht hb₂

theorem exists_isValue_one : ∃ e, IsValue none ['1'] e := by
  have hone : IsDigits ['1'] := ⟨by decide, List.forall_mem_nil _⟩
  exact ⟨_, .literal (.mk .absent hone .absent .absent)⟩

/--
What stands in front of a fault can be read if the fault is that something follows it; otherwise it
can be read with an operand behind it.
-/
def ParseError.Divides (err : ParseError) (readable : String → Prop) (front : String) : Prop :=
  (err.kind = .trailingInput ∧ err.remaining ≠ "" ∧ (∀ c ∈ err.rest.head?, isBlank c = false) ∧
    readable front) ∨
  (err.kind = .noAlternative ∧ readable (front ++ "1"))

theorem ParseError.Divides.mono {front front' : String} {readable readable' : String → Prop}
    (hreadable : ∀ t, readable t → readable' (front' ++ t)) (h : err.Divides readable front) :
    err.Divides readable' (front' ++ front) := by
  obtain ⟨hkind, hne, hhead, hfront⟩ | ⟨hkind, hone⟩ := h
  · exact .inl ⟨hkind, hne, hhead, hreadable _ hfront⟩
  · refine .inr ⟨hkind, ?_⟩
    rw [String.append_assoc]
    exact hreadable _ hone

theorem exists_divides_of_whole (h : Parser.whole s = .error err) :
    ∃ front : String, s = front.toList ++ err.rest ∧
      err.Divides (fun t => ∃ e, IsExpression t.toList e) front := by
  obtain h | ⟨e, r, hread, hne, rfl⟩ := whole_eq_error_iff.mp h
  · obtain ⟨hkind, -, front, hs, hawaits⟩ := blocks_of_expression h
    obtain ⟨one, hone⟩ := exists_isValue_one
    obtain ⟨e, he⟩ := hawaits _ _ hone
    refine ⟨.ofList front, by rwa [String.toList_ofList], .inr ⟨hkind, e, ?_⟩⟩
    have hexpr := IsExpression.mk isBlanks_nil he isBlanks_nil
    rw [List.nil_append, List.append_nil] at hexpr
    rwa [String.toList_append, String.toList_ofList]
  · obtain ⟨t, b, ht, hb, hs⟩ := sound_expression hread
    obtain ⟨b', hb', hr⟩ := exists_skipBlank r
    have hsplit : s = t ++ (b ++ b') ++ skipBlank r := by
      rw [hs]
      conv_lhs => rw [hr]
      simp
    have hne' : String.ofList (skipBlank r) ≠ "" := by
      rwa [Ne, ← String.toList_eq_nil_iff, String.toList_ofList]
    refine ⟨.ofList (t ++ (b ++ b')), ?_, .inl ⟨rfl, hne', head?_skipBlank r, e, ?_⟩⟩
    · rw [String.toList_ofList]
      exact hsplit
    · rw [String.toList_ofList]
      exact .mk isBlanks_nil ht (isBlanks_append hb hb')

end

/-! ## Formulas and expressions -/

section
variable {text : String} {err : ParseError}

theorem exists_whole_of_expr_parse (h : Expr.parse text = .error err) :
    ∃ b s, IsBlanks b ∧ text.toList = b ++ s ∧ Parser.whole s = .error err := by
  obtain ⟨b, hb, hs⟩ := exists_skipBlank text.toList
  exact ⟨b, skipBlank text.toList, hb, hs, h⟩

/-- The text in front of the expression of a formula makes a formula of every expression. -/
theorem exists_whole_of_formula_parse (h : Formula.parse text = .error err) :
    ∃ front s, text.toList = front ++ s ∧ Parser.whole s = .error err ∧
      ∀ t e, IsExpression t e → ∃ f, IsFormula (front ++ t) f := by
  by_cases htarget : ∃ name rest, IsTargeted text.toList name rest
  · obtain ⟨name, rest, htarget⟩ := htarget
    rw [formula_parse_of_targeted htarget, map_eq_error_iff] at h
    obtain ⟨b, b', hb, hname, hb', hs⟩ := htarget
    obtain ⟨b'', hb'', hrest⟩ := exists_skipBlank rest
    refine ⟨b ++ name ++ b' ++ '=' :: b'', skipBlank rest, ?_, h, fun t e ht => ?_⟩
    · rw [hs]
      conv_lhs => rw [hrest]
      simp
    · rw [List.append_assoc, List.cons_append]
      exact ⟨_, .assignment hb hname hb' (isExpression_append hb'' ht)⟩
  · rw [formula_parse_of_not_targeted htarget, map_eq_error_iff] at h
    obtain ⟨b, hb, hs⟩ := exists_skipBlank text.toList
    exact ⟨b, _, hs, h, fun t e ht => ⟨_, .value (isExpression_append hb ht)⟩⟩

theorem eq_append_remaining {front front' : String} {s : List Char}
    (htext : text.toList = front.toList ++ s) (hs : s = front'.toList ++ err.rest) :
    text = front ++ front' ++ err.remaining := by
  apply String.toList_injective
  simp [htext, hs, Fault.remaining]

end

/--
The text of an error is what stands in front of the fault and what remains. Either something follows
an expression, and then the front can be read on its own and the rest begins with no blank; or an
operand is missing, and then the front can be read with `1` behind it. There are no other errors of
whole texts.
-/
theorem parse_error_splits (text : String) (err : ParseError) :
    (Formula.parse text = .error err → ∃ front, text = front ++ err.remaining ∧
      err.Divides (fun t => ∃ f, Formula.parse t = .ok f) front) ∧
    (Expr.parse text = .error err → ∃ front, text = front ++ err.remaining ∧
      err.Divides (fun t => ∃ e, Expr.parse t = .ok e) front) := by
  constructor
  · intro h
    obtain ⟨front, s, htext, hwhole, hformula⟩ := exists_whole_of_formula_parse h
    obtain ⟨front', hs, hdivides⟩ := exists_divides_of_whole hwhole
    rw [← String.toList_ofList (l := front)] at htext
    refine ⟨.ofList front ++ front', eq_append_remaining htext hs, hdivides.mono ?_⟩
    rintro t ⟨e, he⟩
    obtain ⟨f, hf⟩ := hformula _ _ he
    refine ⟨f, formula_parse_eq_ok_iff.mpr ?_⟩
    rwa [String.toList_append, String.toList_ofList]
  · intro h
    obtain ⟨b, s, hb, htext, hwhole⟩ := exists_whole_of_expr_parse h
    obtain ⟨front', hs, hdivides⟩ := exists_divides_of_whole hwhole
    rw [← String.toList_ofList (l := b)] at htext
    refine ⟨.ofList b ++ front', eq_append_remaining htext hs, hdivides.mono ?_⟩
    rintro t ⟨e, he⟩
    refine ⟨e, expr_parse_eq_ok_iff.mpr ?_⟩
    rw [String.toList_append, String.toList_ofList]
    exact isExpression_append hb he

/-- An operator without an operand behind it, and a name that the expression cannot go on with. -/
theorem parse_error_splits_operand :
    let err : ParseError := .single .noAlternative []
    let err' : ParseError := .single .trailingInput "(2e5".toList
    Formula.parse "x = f(2e5) ^ " = .error err ∧ Expr.parse " a + f (2e5" = .error err' ∧
    (∃ front, "x = f(2e5) ^ " = front ++ err.remaining ∧
      err.Divides (fun t => ∃ f, Formula.parse t = .ok f) front) ∧
    ∃ front, " a + f (2e5" = front ++ err'.remaining ∧
      err'.Divides (fun t => ∃ e, Expr.parse t = .ok e) front := by
  intro err err'
  have h : Formula.parse "x = f(2e5) ^ " = .error err := by decide +kernel
  have h' : Expr.parse " a + f (2e5" = .error err' := by decide +kernel
  exact ⟨h, h', (parse_error_splits _ err).1 h, (parse_error_splits _ err').2 h'⟩

/-! ## Causes -/

namespace ParseError

variable {err : ParseError}

theorem exists_chain_eq_append (err : ParseError) :
    ∃ outer, err.chain = outer ++ [err.innermost] := by
  refine List.getLast?_eq_some_iff.mp ?_
  rw [chain, List.getLast?_cons, innermost, List.getLastD_eq_getLast?]

/-- The innermost fault is the one that lies furthest on in the text. -/
theorem rest_innermost_lt (h : err.chain.IsChain Fault.Precedes) :
    ∀ f ∈ err.chain, f = err.innermost ∨ err.innermost.rest.length < f.rest.length := by
  obtain ⟨outer, houter⟩ := exists_chain_eq_append err
  have hshorter : err.chain.IsChain fun f g => g.rest.length < f.rest.length :=
    h.imp fun _ _ hfg => hfg.2.2
  have : Trans (fun f g : Fault => g.rest.length < f.rest.length)
      (fun f g : Fault => g.rest.length < f.rest.length)
      (fun f g : Fault => g.rest.length < f.rest.length) := ⟨fun hab hbc => Nat.lt_trans hbc hab⟩
  have hpairwise := List.isChain_iff_pairwise.mp hshorter
  intro f hf
  rw [houter] at hf hpairwise
  obtain hf | hf := List.mem_append.mp hf
  · exact .inr ((List.pairwise_append.mp hpairwise).2.2 f hf _ (List.mem_singleton_self _))
  · exact .inl (List.mem_singleton.mp hf)

/-- What has a cause is a text in which no form of operand matched. -/
theorem causes_eq_nil (h : err.chain.IsChain Fault.Precedes) (hkind : err.kind ≠ .noAlternative) :
    err.causes = [] := by
  cases hcauses : err.causes with
  | nil => rfl
  | cons f fs =>
    rw [chain, hcauses, List.isChain_cons_cons] at h
    exact absurd h.1.1 hkind

end ParseError

theorem advances_of_parse_error {text : String} {err : ParseError}
    (h : Formula.parse text = .error err ∨ Expr.parse text = .error err) :
    err.Advances text.toList := by
  obtain h | h := h
  · obtain ⟨front, s, htext, hwhole, -⟩ := exists_whole_of_formula_parse h
    exact (advances_of_whole hwhole).mono ⟨front, htext.symm⟩
  · obtain ⟨b, s, -, htext, hwhole⟩ := exists_whole_of_expr_parse h
    exact (advances_of_whole hwhole).mono ⟨b, htext.symm⟩

/--
The faults of an error lie one behind the other in the text: the first one at what remains, each
other one nearer to the end than the one that it causes, the innermost one nearest. Where no form of
operand matches there may be a cause, and nowhere else, so not where something follows an
expression. A missing name, `(` or `#` is never told of.
-/
theorem parse_error_advances (text : String) (err : ParseError)
    (h : Formula.parse text = .error err ∨ Expr.parse text = .error err) :
    err.rest <:+ text.toList ∧
    (err.chain.IsChain fun f g => f.kind = .noAlternative ∧ g.rest <:+ f.rest ∧
      g.rest.length < f.rest.length) ∧
    err.innermost ∈ err.chain ∧
    (∀ f ∈ err.chain, f = err.innermost ∨ err.innermost.rest.length < f.rest.length) ∧
    (err.kind = .trailingInput → err.causes = []) ∧
    ∀ f ∈ err.chain, f.kind = .noAlternative ∨ f.kind = .trailingInput ∨
      (∃ part, f.kind = .literal part) ∨ f.kind = .columnName ∨ f.kind = .expected ')' ∨
      f.kind = .expected '$' := by
  have hadvances := advances_of_parse_error h
  obtain ⟨outer, houter⟩ := ParseError.exists_chain_eq_append err
  have hinnermost := ParseError.rest_innermost_lt hadvances.chain
  refine ⟨hadvances.suffix, hadvances.chain, ?_, hinnermost, ?_, ?_⟩
  · rw [houter]
    exact List.mem_append_right _ (List.mem_singleton_self _)
  · intro hkind
    exact ParseError.causes_eq_nil hadvances.chain (by rw [hkind]; decide)
  · intro f hf
    have hsurfaces := hadvances.surfaces f hf
    cases hkind : f.kind with
    | noAlternative => exact .inl rfl
    | trailingInput => exact .inr (.inl rfl)
    | literal part => exact .inr (.inr (.inl ⟨part, rfl⟩))
    | columnName => exact .inr (.inr (.inr (.inl rfl)))
    | identifier =>
      rw [hkind] at hsurfaces
      exact hsurfaces.elim
    | expected c =>
      rw [hkind] at hsurfaces
      obtain rfl | rfl := hsurfaces
      · simp
      · simp

/-- A point without digits, inside two pairs of parentheses behind a call. -/
theorem parse_error_advances_nested :
    let err : ParseError := ⟨⟨.noAlternative, "((1 - 2.".toList⟩,
      [⟨.noAlternative, "(1 - 2.".toList⟩, ⟨.noAlternative, "2.".toList⟩, ⟨.literal .fraction, []⟩]⟩
    Formula.parse "x = f(2) % ((1 - 2." = .error err ∧
    err.rest <:+ "x = f(2) % ((1 - 2.".toList ∧
    ∀ f ∈ err.chain, f = ⟨.literal .fraction, []⟩ ∨ 0 < f.rest.length := by
  intro err
  have h : Formula.parse "x = f(2) % ((1 - 2." = .error err := by decide +kernel
  have hadvances := parse_error_advances _ err (.inl h)
  exact ⟨h, hadvances.1, hadvances.2.2.2.1⟩

end ColumnCalc
