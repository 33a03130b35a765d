import ColumnCalc.Proofs.Expr.Choice

/-!
# Reading follows the grammar

The parser commits to the longest piece and to the first form of operand that matches, and it skips
blanks wherever it stands; the grammar says nothing of the kind. Still the two have the same texts
with the same trees: `expr_parse_eq_ok_iff` for expressions, `formula_parse_eq_ok_iff` for formulas.
-/

namespace ColumnCalc

open Text Grammar

/-! ## Expressions -/

theorem sound_expression {s r : List Char} {e : Expr} (h : Reads (Parser.expression s) e r) :
    Starts (some .additive) s e r := by
  rw [Parser.expression] at h
  refine sound_level (fun t ht e r h => ?_) .additive _ _ _ _ h
  refine starts_of_reads_operand (fun u hu e r h => ?_) h
  exact sound_expression h
termination_by s.length

theorem complete_expression {s r : List Char} {e : Expr} (h : Starts (some .additive) s e r)
    (hr : Follows (some .additive) r) : Reads (Parser.expression s) e r := by
  rw [Parser.expression]
  refine complete_level (fun t ht e r h hr => ?_) .additive _ _ _ _ h hr
  refine complete_operand (fun u hu e r h hr => ?_) h hr
  exact complete_expression h hr
termination_by s.length

/-! ## Whole texts -/

section
variable {s : List Char} {e : Expr}

theorem skipBlank_eq_nil_iff : skipBlank s = [] ↔ IsBlanks s := by
  simp [skipBlank, IsBlanks]

theorem atEnd_eq_ok_iff {u : Unit} : Parser.atEnd s = .ok u ↔ IsBlanks s := by
  unfold Parser.atEnd
  split
  · rename_i h
    simpa [skipBlank_eq_nil_iff] using h
  · rename_i h
    simpa [skipBlank_eq_nil_iff] using h

theorem whole_eq_ok_iff :
    Parser.whole s = .ok e ↔ ∃ t b, IsValue (some .additive) t e ∧ IsBlanks b ∧ s = t ++ b := by
  unfold Parser.whole
  constructor
  · intro h
    obtain ⟨p, hread, h⟩ := bind_eq_ok_iff.mp h
    obtain ⟨_, hend, h⟩ := bind_eq_ok_iff.mp h
    cases h
    obtain ⟨t, b, ht, hb, hs⟩ := sound_expression (.of_eq_ok hread)
    refine ⟨t, b ++ p.rest, ht, isBlanks_append hb (atEnd_eq_ok_iff.mp hend), ?_⟩
    exact hs.trans (List.append_assoc _ _ _)
  · rintro ⟨t, b, ht, hb, rfl⟩
    have hstart : Starts (some .additive) (t ++ b) e [] := ⟨t, b, ht, hb, by simp⟩
    obtain ⟨_, hread⟩ := complete_expression hstart .nil
    rw [hread]
    rfl

/-- Blanks in front of an expression are skipped before it is read. -/
theorem whole_skipBlank_eq_ok_iff :
    Parser.whole (skipBlank s) = .ok e ↔ IsExpression s e := by
  rw [whole_eq_ok_iff]
  constructor
  · rintro ⟨t, b', ht, hb', hsplit⟩
    obtain ⟨b, hb, hs⟩ := exists_skipBlank s
    rw [hs, hsplit, ← List.append_assoc]
    exact .mk hb ht hb'
  · rintro ⟨hb, ht, hb'⟩
    refine ⟨_, _, ht, hb', ?_⟩
    rw [List.append_assoc, skipBlank_append hb, skipBlank_eq_self ht]

theorem not_mem_of_isExpression (h : IsExpression s e) : '=' ∉ s := by
  obtain ⟨hb, ht, hb'⟩ := h
  simp only [List.mem_append, not_or]
  exact ⟨⟨not_mem_of_isBlanks hb (by decide), not_mem_of_isValue ht⟩,
    not_mem_of_isBlanks hb' (by decide)⟩

/-- What is read as a target is a name and the sign behind it. -/
theorem target?_eq_some_iff {name r : List Char} :
    Parser.target? s = some (name, r) ↔
      ∃ b r', IsIdentifier name ∧ IsBlanks b ∧ s = name ++ (b ++ '=' :: r') ∧ r = skipBlank r' := by
  unfold Parser.target?
  constructor
  · intro h
    obtain ⟨p, hp, h⟩ := Option.bind_eq_some_iff.mp h
    obtain ⟨q, hq, h⟩ := Option.bind_eq_some_iff.mp h
    cases h
    obtain ⟨hident, hs⟩ := isRun_of_run? hp
    obtain ⟨b, hb, hrest⟩ := exists_skipBlank p.rest
    refine ⟨b, q.rest, hident, hb, ?_, rfl⟩
    rw [← (char?_eq_some_iff.mp hq).2, ← hrest, ← hs]
  · rintro ⟨b, r', hident, hb, rfl, rfl⟩
    have hbreak : Breaks (b ++ '=' :: r') := .blanks hb (.cons (by decide))
    obtain ⟨_, hp⟩ := run?_append hident fun c hc => (hbreak c hc).1
    have hskip : skipBlank (b ++ '=' :: r') = '=' :: r' := by
      rw [skipBlank_append hb]
      exact skipBlank_cons (by decide)
    have hq : Scan.char? '=' (skipBlank (b ++ '=' :: r'))
        = some ⟨'=', r', by rw [hskip]; exact Nat.lt_succ_self _⟩ :=
      char?_eq_some_iff.mpr ⟨rfl, hskip⟩
    simp only [Scan.identifier?, hp, Option.bind_eq_bind, Option.bind_some, hq, Option.pure_def]

end

theorem expr_parse_eq_ok_iff {text : String} {e : Expr} :
    Expr.parse text = .ok e ↔ IsExpression text.toList e :=
  whole_skipBlank_eq_ok_iff

/-! ## Targets -/

section
variable {text : String} {s name rest : List Char}

/-- Blanks in front of a name are skipped before it is read as a target. -/
theorem target?_skipBlank_eq_some_iff {r : List Char} :
    Parser.target? (skipBlank s) = some (name, r) ↔
      ∃ rest, IsTargeted s name rest ∧ r = skipBlank rest := by
  rw [target?_eq_some_iff]
  constructor
  · rintro ⟨b', rest, hname, hb', hs, rfl⟩
    obtain ⟨b, hb, hsplit⟩ := exists_skipBlank s
    refine ⟨rest, ⟨b, b', hb, hname, hb', ?_⟩, rfl⟩
    rw [hsplit, hs]
    simp
  · rintro ⟨rest, ⟨b, b', hb, hname, hb', rfl⟩, rfl⟩
    refine ⟨b', rest, hname, hb', ?_, rfl⟩
    simp only [List.append_assoc]
    rw [skipBlank_append hb, skipBlank_eq_self (.constant hname)]

theorem formula_parse_of_targeted (h : IsTargeted text.toList name rest) :
    Formula.parse text
      = (Parser.whole (skipBlank rest)).map fun e => ⟨some (.ofList name), e⟩ := by
  have htarget := target?_skipBlank_eq_some_iff.mpr ⟨rest, h, rfl⟩
  simp only [Formula.parse, htarget]
  cases Parser.whole (skipBlank rest) with
  | error err => rfl
  | ok e => rfl

theorem formula_parse_of_not_targeted (h : ¬ ∃ name rest, IsTargeted text.toList name rest) :
    Formula.parse text = (Parser.whole (skipBlank text.toList)).map fun e => ⟨none, e⟩ := by
  have hnone : Parser.target? (skipBlank text.toList) = none := by
    refine Option.eq_none_iff_forall_ne_some.mpr fun p htarget => ?_
    obtain ⟨rest, hrest, -⟩ := target?_skipBlank_eq_some_iff.mp htarget
    exact h ⟨_, _, hrest⟩
  simp only [Formula.parse, hnone]
  cases Parser.whole (skipBlank text.toList) with
  | error err => rfl
  | ok e => rfl

end

theorem formula_parse_eq_ok_iff {text : String} {f : Formula} :
    Formula.parse text = .ok f ↔ IsFormula text.toList f := by
  constructor
  · intro h
    by_cases htarget : ∃ name rest, IsTargeted text.toList name rest
    · obtain ⟨name, rest, htarget⟩ := htarget
      rw [formula_parse_of_targeted htarget] at h
      obtain ⟨e, hwhole, rfl⟩ := map_eq_ok_iff.mp h
      obtain ⟨b, b', hb, hname, hb', hs⟩ := htarget
      rw [hs]
      exact .assignment hb hname hb' (whole_skipBlank_eq_ok_iff.mp hwhole)
    · rw [formula_parse_of_not_targeted htarget] at h
      obtain ⟨e, hwhole, rfl⟩ := map_eq_ok_iff.mp h
      exact .value (whole_skipBlank_eq_ok_iff.mp hwhole)
  · generalize hs : text.toList = s
    rintro (hexpr | ⟨hb, hname, hb', hexpr⟩)
    · have hnone : ¬ ∃ name rest, IsTargeted text.toList name rest := by
        rintro ⟨name, rest, b, b', -, -, -, hsplit⟩
        refine not_mem_of_isExpression hexpr ?_
        rw [← hs, hsplit]
        simp
      rw [formula_parse_of_not_targeted hnone, hs, whole_skipBlank_eq_ok_iff.mpr hexpr]
      rfl
    · rw [formula_parse_of_targeted ⟨_, _, hb, hname, hb', hs⟩, whole_skipBlank_eq_ok_iff.mpr hexpr]
      rfl

theorem isFormula_unique {s : List Char} {f g : Formula} (hf : IsFormula s f)
    (hg : IsFormula s g) : f = g := by
  have hs : (String.ofList s).toList = s := String.toList_ofList
  rw [← hs] at hf hg
  have h := formula_parse_eq_ok_iff.mpr hf
  rw [formula_parse_eq_ok_iff.mpr hg] at h
  cases h
  rfl

/--
The texts that are read are those of the grammar, with the trees of the grammar, for formulas as for
expressions; and the grammar gives no text two trees.
-/
theorem parse_iff_grammar :
    (∀ text f, Formula.parse text = .ok f ↔ IsFormula text.toList f) ∧
    (∀ text e, Expr.parse text = .ok e ↔ IsExpression text.toList e) ∧
    ∀ s f g, IsFormula s f → IsFormula s g → f = g :=
  ⟨fun _ _ => formula_parse_eq_ok_iff, fun _ _ => expr_parse_eq_ok_iff,
    fun _ _ _ hf hg => isFormula_unique hf hg⟩

/-- A name that no parenthesis follows, two signs, and spaces that are no part of a name. -/
theorem parse_iff_grammar_signs :
    let text := "y = e - -2e1 * f ($a b  $)"
    let f : Formula := ⟨some "y", .binary (.constant "e") '-'
      (.binary (.literal (-20.0)) '*' (.call "f" (.column "a b")))⟩
    IsFormula text.toList f ∧ (∀ g, IsFormula text.toList g → g = f) ∧
    ¬ ∃ e, IsExpression text.toList e := by
  intro text f
  obtain ⟨hformula, hexpr, hunique⟩ := parse_iff_grammar
  have hread : IsFormula text.toList f := (hformula text f).mp (by decide +kernel)
  have hrefused : Expr.parse text
      = .error (.single .trailingInput "= e - -2e1 * f ($a b  $)".toList) := by decide +kernel
  refine ⟨hread, fun g hg => hunique _ g f hg hread, ?_⟩
  rintro ⟨e, he⟩
  cases ((hexpr text e).mpr he).symm.trans hrefused

end ColumnCalc
