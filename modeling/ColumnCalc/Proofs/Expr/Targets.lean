import ColumnCalc.Proofs.Expr.Reading

/-!
# Targets

A formula is an expression unless its text starts with a name and `=`. If it does, the formula is
what stands behind the sign, with the name as its target, and the text is no expression: an
expression ends before the first `=` (`parse_by_target`).
-/

namespace ColumnCalc

open Text Grammar

section
variable {s name b r : List Char} {f : Formula}

/-- A name in front of `=` is read as a constant, and nothing is read behind it. -/
theorem reads_expression_of_target (hname : IsIdentifier name) (hb : IsBlanks b) :
    Reads (Parser.expression (name ++ (b ++ '=' :: r))) (.constant (.ofList name)) ('=' :: r) := by
  have hend : ∀ c ∈ (b ++ '=' :: r).head?, isIdentPart c = false := fun c hc =>
    ((Breaks.blanks hb (.cons (by decide)) : Breaks (b ++ '=' :: r)) c hc).1
  have hskip : skipBlank (b ++ '=' :: r) = '=' :: r := by
    rw [skipBlank_append hb]
    exact skipBlank_cons (by decide)
  have hconstant : Reads (Parser.constant (name ++ (b ++ '=' :: r))) (.constant (.ofList name))
      ('=' :: r) :=
    reads_constant_iff.mpr ⟨name, _, reads_identifier hname hend, rfl, hskip.symm⟩
  have hopen : '(' ∉ (skipBlank (b ++ '=' :: r)).head? := by
    rw [hskip, List.head?_cons, Option.mem_some_iff]
    decide
  rw [Parser.expression]
  refine reads_level_of_operand (reads_operand_of_constant ?_ hconstant) ?_ .additive
  · exact fun e r => not_reads_call_of_name hname hend hopen
  · intro c hc
    cases hc
    decide

/-- At most one `=` stands in a formula: the one behind its target. -/
theorem count_le_one_of_isFormula (h : IsFormula s f) : s.count '=' ≤ 1 := by
  cases h with
  | value hexpr =>
    rw [List.count_eq_zero_of_not_mem (not_mem_of_isExpression hexpr)]
    exact Nat.zero_le 1
  | assignment hb hname hb' hexpr =>
    have hident := not_mem_of_isRun (c := '=') hname (by decide) (by decide)
    simp [List.count_append, List.count_eq_zero_of_not_mem (not_mem_of_isExpression hexpr),
      List.count_eq_zero_of_not_mem (not_mem_of_isBlanks (c := '=') hb (by decide)),
      List.count_eq_zero_of_not_mem (not_mem_of_isBlanks (c := '=') hb' (by decide)),
      List.count_eq_zero_of_not_mem hident]

end

section
variable {text : String} {name rest : List Char}

theorem expr_parse_of_targeted (h : IsTargeted text.toList name rest) :
    Expr.parse text = .error (.single .trailingInput ('=' :: rest)) := by
  obtain ⟨b, b', hb, hname, hb', hs⟩ := h
  have hstart : skipBlank text.toList = name ++ (b' ++ '=' :: rest) := by
    rw [hs]
    simp only [List.append_assoc]
    rw [skipBlank_append hb, skipBlank_eq_self (.constant hname)]
  obtain ⟨_, hread⟩ := reads_expression_of_target (r := rest) hname hb'
  have hend : Parser.atEnd ('=' :: rest) = .error (.single .trailingInput ('=' :: rest)) := by
    unfold Parser.atEnd
    rw [skipBlank_cons (by decide)]
    rfl
  rw [Expr.parse, hstart, Parser.whole, hread]
  exact bind_eq_error_iff.mpr (.inr ⟨_, rfl, bind_eq_error_iff.mpr (.inl hend)⟩)

end

/--
A text that starts with no name and `=` is the same as a formula and as an expression, with the same
tree or the same error. A text that starts with them is, as a formula, what stands behind them, with
the name as the target of its tree or with the same error; as an expression it ends before the sign.
A text with another `=` is no formula.
-/
theorem parse_by_target (text : String) :
    ((¬ ∃ name rest, IsTargeted text.toList name rest) →
      Formula.parse text = (Expr.parse text).map fun e => ⟨none, e⟩) ∧
    (∀ name rest, IsTargeted text.toList name rest →
      Formula.parse text = ((Expr.parse (.ofList rest)).map fun e => ⟨some (.ofList name), e⟩) ∧
      Expr.parse text = .error (.single .trailingInput ('=' :: rest))) ∧
    (1 < text.toList.count '=' → ∃ err, Formula.parse text = .error err) := by
  refine ⟨formula_parse_of_not_targeted, fun name rest h => ⟨?_, expr_parse_of_targeted h⟩, ?_⟩
  · rw [formula_parse_of_targeted h, Expr.parse, String.toList_ofList]
  · intro hcount
    cases hparse : Formula.parse text with
    | error err => exact ⟨err, rfl⟩
    | ok f =>
      have hle := count_le_one_of_isFormula (formula_parse_eq_ok_iff.mp hparse)
      omega

/-- Two targets, and a text without one. -/
theorem parse_by_target_twice :
    let text := " x\t= a == 2"
    IsTargeted text.toList ['x'] " a == 2".toList ∧ 1 < text.toList.count '=' ∧
    Formula.parse text = .error (.single .trailingInput "== 2".toList) ∧
    Expr.parse text = .error (.single .trailingInput "= a == 2".toList) ∧
    (¬ ∃ name rest, IsTargeted "1 + ".toList name rest) ∧
    Formula.parse "1 + " = .error (.single .noAlternative []) := by
  intro text
  have hname {c : Char} (hc : isIdentStart c = true) : IsIdentifier [c] :=
    ⟨hc, List.forall_mem_nil _⟩
  have hspace : IsBlanks [' '] := List.all_eq_true.mp (by decide)
  have htab : IsBlanks ['\t'] := List.all_eq_true.mp (by decide)
  have htext : IsTargeted text.toList ['x'] " a == 2".toList :=
    ⟨[' '], ['\t'], hspace, hname (by decide), htab, by decide⟩
  have hrest : IsTargeted (String.ofList " a == 2".toList).toList ['a'] "= 2".toList :=
    ⟨[' '], [' '], hspace, hname (by decide), hspace, rfl⟩
  have hnone : ¬ ∃ name rest, IsTargeted "1 + ".toList name rest := by
    rintro ⟨name, rest, b, b', -, -, -, hsplit⟩
    have hmem : '=' ∈ "1 + ".toList := by
      rw [hsplit]
      simp
    exact absurd hmem (by decide)
  obtain ⟨hformula, hexpr⟩ := (parse_by_target text).2.1 _ _ htext
  refine ⟨htext, by decide, ?_, hexpr, hnone, ?_⟩
  · rw [hformula, ((parse_by_target _).2.1 _ _ hrest).2]
    rfl
  · rw [(parse_by_target "1 + ").1 hnone]
    decide +kernel

end ColumnCalc
