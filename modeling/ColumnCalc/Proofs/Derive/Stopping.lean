import ColumnCalc.Proofs.Derive.Partition
import ColumnCalc.Proofs.Eval.Lookups
import ColumnCalc.Proofs.Expr.Reading

/-!
# What can stop a row

Of the names that an expression looks up, simplifying leaves no constant, and an operator only if it
is known (`Expr.remains_of_simplify`). So a folded column can miss nothing in a row but a column of
the row or a function (`values_or_missing_name`). Operators are no cause anywhere: those that the
grammar lets through are those that can be computed (`Grammar.found_operator_of_isValue`).
-/

namespace ColumnCalc

/-! ## Simplified expressions -/

namespace Lookup

/-- A name that a simplified expression can still look up. -/
def Remains : Lookup → Prop
  | operator op => (Symbols.operator? op).isSome = true
  | function _ => True
  | constant _ => False
  | column _ => True

end Lookup

namespace Expr

variable {known : Context} {e e' : Expr} {err : EvalError} {values : RowValues}

theorem remains_of_simplify (h : e.simplify known = .ok e') : ∀ l ∈ e'.lookups, l.Remains := by
  rw [simplify_eq_ok_iff] at h
  induction h with
  | literal _ | column _ _ | row _ | constant _ | call _ _ _ | binary _ _ _ _ _ =>
    exact List.forall_mem_nil _
  | rowKept _ => exact List.forall_mem_nil _
  | columnKept _ => exact List.forall_mem_singleton.mpr trivial
  | callKept _ _ ih =>
    exact List.forall_mem_append.mpr ⟨ih, List.forall_mem_singleton.mpr trivial⟩
  | @binaryKept _ _ _ _ op f htable _ _ _ ihl ihr =>
    have hknown : Lookup.Remains (.operator op) := Option.isSome_iff_exists.mpr ⟨f, htable⟩
    exact List.forall_mem_cons.mpr ⟨hknown, List.forall_mem_append.mpr ⟨ihl, ihr⟩⟩

/-- Only a name that the expression looks up can be the reason why it cannot be simplified. -/
theorem exists_lookup_of_simplify_error (h : e.simplify known = .error err) :
    ∃ l ∈ e.lookups, err = l.error ∧ ¬ l.Found (known.values.getD .empty) := by
  obtain ⟨before, missing, after, hsplit, hmissing, herr, -⟩ :=
    (simplify_eq_error_iff.mp h).exists_missing
  refine ⟨missing, ?_, herr, hmissing⟩
  rw [hsplit]
  simp

/-- A row has all that a simplified expression looks up if it has its columns, and its functions are
known. -/
theorem forall_found_iff_of_remains (h : ∀ l ∈ e.lookups, l.Remains) :
    (∀ l ∈ e.lookups, l.Found values) ↔
      (∀ name ∈ e.columns, name ∈ values.pairs.map (·.1)) ∧
      ∀ name, .function name ∈ e.lookups → name ∈ Symbols.functionNames := by
  rw [forall_found_iff]
  constructor
  · rintro ⟨-, -, hfunctions, hcolumns⟩
    exact ⟨hcolumns, hfunctions⟩
  · rintro ⟨hcolumns, hfunctions⟩
    refine ⟨fun op hop => ?_, fun name hname => ?_, hfunctions, hcolumns⟩
    · have hknown : (Lookup.operator op).Found values := Lookup.found_operator_iff.mpr (h _ hop)
      exact hknown
    · exact absurd (h _ hname) id

end Expr

/-! ## Parsed expressions -/

namespace Grammar

variable {values : RowValues}

/-- The operators of the levels are among those that can be computed. -/
theorem found_of_mem_operators {level : Level} {op : Char} (h : op ∈ level.operators) :
    (Lookup.operator op).Found values := by
  have hlevel : level.operators ⊆ ['+', '-', '*', '/', '%', '^'] := by
    cases level <;> decide
  exact hlevel h

theorem found_operator_of_isValue {level : Option Level} {s : List Char} {e : Expr}
    (h : IsValue level s e) :
    ∀ op, .operator op ∈ e.lookups → (Lookup.operator op).Found values := by
  induction h with
  | lift _ ih => exact ih
  | binary _ _ hop _ _ ihl ihr =>
    intro op' hop'
    rcases List.mem_cons.mp hop' with hop' | hop'
    · cases hop'
      exact found_of_mem_operators hop
    · exact (List.mem_append.mp hop').elim (ihl op') (ihr op')
  | call _ _ _ _ _ ih =>
    intro op hop
    rcases List.mem_append.mp hop with hop | hop
    · exact ih op hop
    · cases List.mem_singleton.mp hop
  | column _ _ => simp [Expr.lookups]
  | literal _ => simp [Expr.lookups]
  | row => simp [Expr.lookups]
  | parens _ _ _ ih => exact ih
  | constant _ => simp [Expr.lookups]

theorem found_operator_of_isFormula {s : List Char} {f : Formula} (h : IsFormula s f) :
    ∀ op, .operator op ∈ f.value.lookups → (Lookup.operator op).Found values := by
  cases h with
  | value h =>
    obtain ⟨-, hvalue, -⟩ := h
    exact found_operator_of_isValue hvalue
  | assignment _ _ _ h =>
    obtain ⟨-, hvalue, -⟩ := h
    exact found_operator_of_isValue hvalue

end Grammar

/-! ## Rows -/

namespace Deriver

variable {d : Deriver} {sources : List String} {index : Nat} {row : RowValues} {err : DeriveError}

/-- The columns of the row that the folded expressions refer to are those of the sources. -/
theorem forall_mem_columns_iff (h : ofSources sources = .ok d) (P : String → Prop) :
    (∀ column ∈ d.columns, ∀ name ∈ column.expr.columns, P name) ↔
      ∀ source ∈ sources, ∀ target value, Formula.parse source = .ok ⟨some target, value⟩ →
        ∀ name ∈ value.columns, P name := by
  have hfolded := forall₂_ofSources h
  constructor
  · intro hcolumns source hsource target value hparse name hname
    have hmem : (target, value) ∈ sources.filterMap assignment? :=
      List.mem_filterMap.mpr ⟨source, hsource, assignment?_eq_some_iff.mpr hparse⟩
    obtain ⟨column, hcolumn, -, hfold⟩ := exists_of_forall₂ hfolded.flip hmem
    rw [← Expr.columns_of_simplify rfl hfold] at hname
    exact hcolumns column hcolumn name hname
  · intro hsources column hcolumn name hname
    obtain ⟨⟨target, value⟩, hmem, -, hfold⟩ := exists_of_forall₂ hfolded hcolumn
    obtain ⟨source, hsource, hassignment⟩ := List.mem_filterMap.mp hmem
    rw [Expr.columns_of_simplify rfl hfold] at hname
    exact hsources source hsource target value (assignment?_eq_some_iff.mp hassignment) name hname

theorem remains_of_mem_columns (h : ofSources sources = .ok d) {column : DerivedColumn}
    (hcolumn : column ∈ d.columns) : ∀ l ∈ column.expr.lookups, l.Remains := by
  obtain ⟨a, -, ha, hfold⟩ := exists_of_forall₂ (forall₂_ofSources h) hcolumn
  exact Expr.remains_of_simplify hfold

theorem exists_values_iff_of_ofSources (h : ofSources sources = .ok d) :
    (∃ vs, d.values index row = .ok vs) ↔
      (∀ column ∈ d.columns, ∀ name ∈ column.expr.columns, name ∈ row.pairs.map (·.1)) ∧
      ∀ column ∈ d.columns, ∀ name, .function name ∈ column.expr.lookups →
        name ∈ Symbols.functionNames := by
  have hfound : ∀ column ∈ d.columns, (∃ v, column.expr.evaluate index row = .ok v) ↔
      (∀ name ∈ column.expr.columns, name ∈ row.pairs.map (·.1)) ∧
      ∀ name, .function name ∈ column.expr.lookups → name ∈ Symbols.functionNames :=
    fun column hcolumn => Expr.exists_evaluate_iff.trans
      (Expr.forall_found_iff_of_remains (remains_of_mem_columns h hcolumn))
  rw [exists_values_iff, forall₂_congr hfound]
  exact ⟨fun h => ⟨fun c hc => (h c hc).1, fun c hc => (h c hc).2⟩,
    fun h c hc => ⟨h.1 c hc, h.2 c hc⟩⟩

/-- The error of a row names a column of the row or a function that a folded column needs. -/
theorem missing_of_values_error (h : ofSources sources = .ok d)
    (herror : d.values index row = .error err) : ∃ column ∈ d.columns, ∃ e,
      err = .row index column.name e ∧
        ((∃ name ∈ column.expr.columns, name ∉ row.pairs.map (·.1) ∧ e = .columnNotFound name) ∨
          ∃ name, .function name ∈ column.expr.lookups ∧ name ∉ Symbols.functionNames ∧
            e = .unknownSymbol .function name) := by
  obtain ⟨front, column, back, e, hcolumns, -, hevaluate, rfl⟩ := values_eq_error_iff.mp herror
  have hcolumn : column ∈ d.columns := by
    rw [hcolumns]
    simp
  obtain ⟨l, hfirst, rfl⟩ := Expr.evaluate_eq_error_iff.mp hevaluate
  obtain ⟨before, after, hsplit, -, hmissing⟩ := Expr.firstMissing?_eq_some_iff.mp hfirst
  have hl : l ∈ column.expr.lookups := by
    rw [hsplit]
    simp
  have hremains := remains_of_mem_columns h hcolumn l hl
  refine ⟨column, hcolumn, _, rfl, ?_⟩
  cases l with
  | operator op => exact absurd (Lookup.found_operator_iff.mpr hremains) hmissing
  | constant name => exact absurd hremains id
  | column name => exact .inl ⟨name, Expr.mem_columns_iff.mpr hl, hmissing, rfl⟩
  | function name => exact .inr ⟨name, hl, hmissing, rfl⟩

end Deriver

/--
No text of the language has an operator that cannot be computed, whatever is known. Once there is a
deriver, a row has values exactly if it has every column that the kept sources refer to and every
function left in the folded columns is known; otherwise the error is that of a column of the row or
of a function that is missing.
-/
theorem values_or_missing_name :
    (∀ text f known name, Formula.parse text = .ok f →
      f.value.simplify known ≠ .error (.unknownSymbol .operator name)) ∧
    ∀ sources d, Deriver.ofSources sources = .ok d → ∀ index row,
      ((∃ vs, d.values index row = .ok vs) ↔
        (∀ source ∈ sources, ∀ target value, Formula.parse source = .ok ⟨some target, value⟩ →
          ∀ name ∈ value.columns, name ∈ row.pairs.map (·.1)) ∧
        ∀ column ∈ d.columns, ∀ name, .function name ∈ column.expr.lookups →
          name ∈ Symbols.functionNames) ∧
      ∀ err, d.values index row = .error err → ∃ column ∈ d.columns, ∃ e,
        err = .row index column.name e ∧
          ((∃ name ∈ column.expr.columns, name ∉ row.pairs.map (·.1) ∧
              e = .columnNotFound name) ∨
            ∃ name, .function name ∈ column.expr.lookups ∧ name ∉ Symbols.functionNames ∧
              e = .unknownSymbol .function name) := by
  refine ⟨fun text f known name hparse herror => ?_, fun sources d h index row =>
    ⟨?_, fun err => Deriver.missing_of_values_error h⟩⟩
  · obtain ⟨l, hl, herr, hmissing⟩ := Expr.exists_lookup_of_simplify_error herror
    cases l with
    | operator op =>
      have hformula := formula_parse_eq_ok_iff.mp hparse
      exact hmissing (Grammar.found_operator_of_isFormula hformula op hl)
    | _ => cases herr
  · rw [Deriver.exists_values_iff_of_ofSources h, Deriver.forall_mem_columns_iff h]

/-- A column that is only multiplied by zero is needed, and so is the function of another one. -/
theorem values_or_missing_name_needed :
    let sources := ["1 +", "a = 0 * $x$", "b = f($y$)"]
    let d : Deriver := ⟨[⟨"a", "a = 0 * $x$", .binary (.literal 0.0) '*' (.column "x")⟩,
      ⟨"b", "b = f($y$)", .call "f" (.column "y")⟩],
      [⟨"1 +", .unreadable (.single .noAlternative [])⟩]⟩
    let value : Expr := .binary (.literal 0.0) '*' (.column "x")
    Formula.parse "a = 0 * $x$" = .ok ⟨some "a", value⟩ ∧
    value.simplify ⟨some 2, none⟩ ≠ .error (.unknownSymbol .operator "*") ∧
    Deriver.ofSources sources = .ok d ∧
    (¬ ∃ vs, d.values 2 ⟨[("y", 1.0)]⟩ = .ok vs) ∧
    (¬ ∃ vs, d.values 2 ⟨[("x", 1.0), ("y", 1.0)]⟩ = .ok vs) ∧
    ∃ column ∈ d.columns, column.name = "b" ∧
      d.values 2 ⟨[("x", 1.0), ("y", 1.0)]⟩
        = .error (.row 2 column.name (.unknownSymbol .function "f")) := by
  intro sources d value
  obtain ⟨hoperators, hrows⟩ := values_or_missing_name
  have hparse : Formula.parse "a = 0 * $x$" = .ok ⟨some "a", value⟩ := by decide +kernel
  have hd : Deriver.ofSources sources = .ok d := by decide +kernel
  refine ⟨hparse, hoperators _ _ _ _ hparse, hd, fun hvalues => ?_, fun hvalues => ?_,
    d.columns[1], by decide, rfl, by decide +kernel⟩
  · have hcolumns := ((hrows sources d hd _ _).1.mp hvalues).1
    exact absurd (hcolumns _ (by decide) "a" value hparse "x" (by decide)) (by decide)
  · have hfunctions := ((hrows sources d hd _ _).1.mp hvalues).2
    exact absurd (hfunctions d.columns[1] (by decide) "f" (by decide)) (by decide)

end ColumnCalc
