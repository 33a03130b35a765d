import ColumnCalc.Proofs.Eval.References
import ColumnCalc.Proofs.Eval.Shape

/-!
# Names that a row has to resolve

Evaluating an expression looks its names up one after another: an operator before its operands, a
function behind its argument (`Expr.lookups`). If all are found, the expression has the value that
its nodes make up (`Expr.HasValue`); otherwise the first one that is missing is the error
(`value_or_first_missing`).
-/

namespace ColumnCalc

/-- A name, and the table that it is looked up in. -/
inductive Lookup where
  | operator (op : Char)
  | function (name : String)
  | constant (name : String)
  /-- A column of the row. -/
  | column (name : String)
  deriving DecidableEq, Repr

namespace Lookup

variable {values : RowValues}

def Found (values : RowValues) : Lookup → Prop
  | operator op => op ∈ ['+', '-', '*', '/', '%', '^']
  | function name => name ∈ Symbols.functionNames
  | constant name => Text.lower name ∈ Symbols.constantNames
  | column name => name ∈ values.pairs.map (·.1)

instance (values : RowValues) (l : Lookup) : Decidable (l.Found values) :=
  match l with
  | operator op => inferInstanceAs (Decidable (op ∈ ['+', '-', '*', '/', '%', '^']))
  | function name => inferInstanceAs (Decidable (name ∈ Symbols.functionNames))
  | constant name => inferInstanceAs (Decidable (Text.lower name ∈ Symbols.constantNames))
  | column name => inferInstanceAs (Decidable (name ∈ values.pairs.map (·.1)))

/-- The error of a name that is missing. -/
def error : Lookup → EvalError
  | operator op => .unknownSymbol .operator op.toString
  | function name => .unknownSymbol .function name
  | constant name => .unknownSymbol .constant name
  | column name => .columnNotFound name

theorem found_operator_iff {op : Char} :
    (operator op).Found values ↔ (Symbols.operator? op).isSome = true := by
  rw [Symbols.operator?, List.lookup_isSome_iff]
  simp [Found, Symbols.operators]

theorem found_function_iff {name : String} :
    (function name).Found values ↔ (Symbols.function? name).isSome = true := by
  simp only [Symbols.function?, List.lookup_isSome_iff, Found, Symbols.functionNames, List.mem_map,
    beq_iff_eq, eq_comm (a := name)]

theorem found_constant_iff {name : String} :
    (constant name).Found values ↔ (Symbols.constant? name).isSome = true := by
  simp only [Symbols.constant?, List.lookup_isSome_iff, Found, Symbols.constantNames, List.mem_map,
    beq_iff_eq, eq_comm (a := Text.lower name)]

theorem found_column_iff {name : String} :
    (column name).Found values ↔ (values.get? name).isSome = true :=
  RowValues.isSome_get?_iff.symm

end Lookup

namespace Expr

/-- The names of an expression in the order in which they are looked up. -/
def lookups : Expr → List Lookup
  | literal _ => []
  | column name => [.column name]
  | row => []
  | constant name => [.constant name]
  | call function argument => argument.lookups ++ [.function function]
  | binary left op right => .operator op :: (left.lookups ++ right.lookups)

/-- The first name that is missing. -/
def firstMissing? (values : RowValues) (e : Expr) : Option Lookup :=
  e.lookups.find? fun l => ¬ l.Found values

/-- The value of an expression in a row, made up of those of its parts. -/
inductive HasValue (index : Nat) (values : RowValues) : Expr → Float → Prop where
  | literal (v : Float) : HasValue index values (literal v) v
  | column {name : String} {v : Float} (hget : values.get? name = some v) :
    HasValue index values (column name) v
  | row : HasValue index values row (Float.ofNat index)
  | constant {name : String} {v : Float} (htable : Symbols.constant? name = some v) :
    HasValue index values (constant name) v
  | call {function : String} {argument : Expr} {f : Float → Float} {x : Float}
      (htable : Symbols.function? function = some f) (hargument : HasValue index values argument x) :
    HasValue index values (call function argument) (f x)
  | binary {left right : Expr} {op : Char} {f : Float → Float → Float} {x y : Float}
      (htable : Symbols.operator? op = some f) (hleft : HasValue index values left x)
      (hright : HasValue index values right y) :
    HasValue index values (binary left op right) (f x y)

variable {known : Context} {e e' : Expr} {i : Nat} {values : RowValues} {v : Float}
  {err : EvalError}

/-! ## Values -/

theorem simplifies_of_hasValue (h : e.HasValue i values v) :
    Simplifies (.full i values) e (literal v) := by
  induction h with
  | literal v => exact .literal v
  | column hget => exact .column rfl hget
  | row => exact .row rfl
  | constant htable => exact .constant htable
  | call htable _ ih => exact .call ih htable
  | binary htable _ _ ihl ihr => exact .binary htable ihl ihr

theorem hasValue_of_simplifies (h : Simplifies (.full i values) e e') :
    ∀ v, e' = literal v → e.HasValue i values v := by
  induction h with
  | literal x =>
    rintro v ⟨⟩
    exact .literal x
  | column hvalues hget =>
    rintro v ⟨⟩
    cases hvalues
    exact .column hget
  | row hindex =>
    rintro v ⟨⟩
    cases hindex
    exact .row
  | constant htable =>
    rintro v ⟨⟩
    exact .constant htable
  | call _ htable ih =>
    rintro v ⟨⟩
    exact .call htable (ih _ rfl)
  | binary htable _ _ ihl ihr =>
    rintro v ⟨⟩
    exact .binary htable (ihl _ rfl) (ihr _ rfl)
  | columnKept _ | rowKept _ | callKept _ _ _ | binaryKept _ _ _ _ _ _ => exact fun _ h => nomatch h

theorem evaluate_eq_ok_iff_hasValue : e.evaluate i values = .ok v ↔ e.HasValue i values v := by
  rw [evaluate_eq_ok_iff, simplify_eq_ok_iff]
  exact ⟨fun h => hasValue_of_simplifies h v rfl, simplifies_of_hasValue⟩

/-! ## Missing names -/

/-- A whole row leaves no name behind. -/
theorem Simplifies.found (h : Simplifies (.full i values) e e') :
    ∀ l ∈ e.lookups, l.Found values := by
  induction h with
  | literal _ | row _ => exact List.forall_mem_nil _
  | columnKept hvalues => cases hvalues
  | rowKept hindex => cases hindex
  | column hvalues hget =>
    cases hvalues
    exact List.forall_mem_singleton.mpr (by simp [Lookup.found_column_iff, hget])
  | constant htable =>
    exact List.forall_mem_singleton.mpr (by simp [Lookup.found_constant_iff, htable])
  | callKept hargument hkept _ =>
    obtain ⟨x, hx⟩ := exists_literal_of_simplify_full hargument.simplify
    exact absurd hx (hkept x)
  | call _ htable ih =>
    refine List.forall_mem_append.mpr ⟨ih, List.forall_mem_singleton.mpr ?_⟩
    simp [Lookup.found_function_iff, htable]
  | binaryKept htable _ _ _ ihl ihr | binary htable _ _ ihl ihr =>
    refine List.forall_mem_cons.mpr ⟨?_, List.forall_mem_append.mpr ⟨ihl, ihr⟩⟩
    simp [Lookup.found_operator_iff, htable]

/--
A failure is that of a name which is missing. In a whole row the names that are looked up before it
are found.
-/
theorem FailsWith.exists_missing (h : FailsWith known e err) : ∃ before missing after,
    e.lookups = before ++ missing :: after ∧ ¬ missing.Found (known.values.getD .empty) ∧
      err = missing.error ∧
      ∀ i values, known = .full i values → ∀ l ∈ before, l.Found values := by
  induction h with
  | @column name _ hvalues hget =>
    refine ⟨[], .column name, [], rfl, ?_, rfl, fun _ _ _ => List.forall_mem_nil _⟩
    simp [Lookup.found_column_iff, hvalues, hget]
  | @constant name htable =>
    refine ⟨[], .constant name, [], rfl, ?_, rfl, fun _ _ _ => List.forall_mem_nil _⟩
    simp [Lookup.found_constant_iff, htable]
  | @argument name _ _ _ ih =>
    obtain ⟨before, missing, after, hsplit, hmissing, herr, hbefore⟩ := ih
    refine ⟨before, missing, after ++ [.function name], ?_, hmissing, herr, hbefore⟩
    rw [lookups, hsplit, List.append_assoc, List.cons_append]
  | @function name argument _ hargument htable =>
    refine ⟨argument.lookups, .function name, [], rfl, ?_, rfl, ?_⟩
    · simp [Lookup.found_function_iff, htable]
    · rintro i values rfl
      exact hargument.found
  | @operator _ _ op htable =>
    refine ⟨[], .operator op, _, rfl, ?_, rfl, fun _ _ _ => List.forall_mem_nil _⟩
    simp [Lookup.found_operator_iff, htable]
  | @left _ right op _ _ htable _ ih =>
    obtain ⟨before, missing, after, hsplit, hmissing, herr, hbefore⟩ := ih
    refine ⟨.operator op :: before, missing, after ++ right.lookups, ?_, hmissing, herr, ?_⟩
    · rw [lookups, hsplit, List.append_assoc, List.cons_append, List.cons_append]
    · refine fun i values hfull => List.forall_mem_cons.mpr ⟨?_, hbefore i values hfull⟩
      simp [Lookup.found_operator_iff, htable]
  | @right left _ _ op _ _ htable hleft _ ih =>
    obtain ⟨before, missing, after, hsplit, hmissing, herr, hbefore⟩ := ih
    refine ⟨.operator op :: (left.lookups ++ before), missing, after, ?_, hmissing, herr, ?_⟩
    · rw [lookups, hsplit, List.cons_append, List.append_assoc]
    · rintro i values rfl
      refine List.forall_mem_cons.mpr ⟨?_, ?_⟩
      · simp [Lookup.found_operator_iff, htable]
      · exact List.forall_mem_append.mpr ⟨hleft.found, hbefore i values rfl⟩

theorem firstMissing?_eq_none_iff :
    e.firstMissing? values = none ↔ ∀ l ∈ e.lookups, l.Found values := by
  simp [firstMissing?]

theorem firstMissing?_eq_some_iff {missing : Lookup} : e.firstMissing? values = some missing ↔
    ∃ before after, e.lookups = before ++ missing :: after ∧
      (∀ l ∈ before, l.Found values) ∧ ¬ missing.Found values := by
  rw [firstMissing?, List.find?_eq_some_iff_append]
  constructor
  · rintro ⟨hmissing, before, after, hsplit, hbefore⟩
    exact ⟨before, after, hsplit, fun l hl => by simpa using hbefore l hl, by simpa using hmissing⟩
  · rintro ⟨before, after, hsplit, hbefore, hmissing⟩
    exact ⟨by simpa using hmissing, before, after, hsplit, fun l hl => by simpa using hbefore l hl⟩

/-! ## Rows -/

/-- An evaluation succeeds if no name is missing; otherwise the first missing one is its error. -/
theorem evaluate_cases (e : Expr) (i : Nat) (values : RowValues) :
    (e.firstMissing? values = none ∧ ∃ v, e.evaluate i values = .ok v) ∨
    ∃ missing, e.firstMissing? values = some missing ∧
      e.evaluate i values = .error missing.error := by
  rcases simplifies_or_failsWith (.full i values) e with ⟨e', h⟩ | ⟨err, h⟩
  · obtain ⟨v, rfl⟩ := exists_literal_of_simplify_full h.simplify
    exact .inl ⟨firstMissing?_eq_none_iff.mpr h.found, v, evaluate_eq_ok_iff.mpr h.simplify⟩
  · obtain ⟨before, missing, after, hsplit, hmissing, rfl, hbefore⟩ := h.exists_missing
    have hfirst := firstMissing?_eq_some_iff.mpr
      ⟨before, after, hsplit, hbefore i values rfl, hmissing⟩
    exact .inr ⟨missing, hfirst, bind_eq_error_iff.mpr (.inl h.simplify)⟩

theorem evaluate_eq_error_iff : e.evaluate i values = .error err ↔
    ∃ missing, e.firstMissing? values = some missing ∧ err = missing.error := by
  rcases evaluate_cases e i values with ⟨hnone, v, hv⟩ | ⟨missing, hmissing, herror⟩
  · simp [hnone, hv]
  · simp [hmissing, herror, eq_comm]

theorem exists_evaluate_iff :
    (∃ v, e.evaluate i values = .ok v) ↔ ∀ l ∈ e.lookups, l.Found values := by
  rw [← firstMissing?_eq_none_iff]
  rcases evaluate_cases e i values with ⟨hnone, v, hv⟩ | ⟨missing, hmissing, herror⟩
  · simp [hnone, hv]
  · simp [hmissing, herror]

/-! ## Kinds of names -/

/-- The columns among the names are those that the expression refers to. -/
theorem mem_columns_iff {name : String} : name ∈ e.columns ↔ .column name ∈ e.lookups := by
  induction e with
  | literal v => simp [columns, lookups]
  | row => simp [columns, lookups]
  | constant name' => simp [columns, lookups]
  | column name' => simp [columns, lookups]
  | call function argument ih => simp [columns, lookups, ih]
  | binary left op right ihl ihr => simp [columns, lookups, ihl, ihr]

/-- Names of all four kinds are found. -/
theorem forall_found_iff : (∀ l ∈ e.lookups, l.Found values) ↔
    (∀ op, .operator op ∈ e.lookups → op ∈ ['+', '-', '*', '/', '%', '^']) ∧
    (∀ name, .constant name ∈ e.lookups → Text.lower name ∈ Symbols.constantNames) ∧
    (∀ name, .function name ∈ e.lookups → name ∈ Symbols.functionNames) ∧
    ∀ name ∈ e.columns, name ∈ values.pairs.map (·.1) := by
  constructor
  · intro h
    exact ⟨fun op => h (.operator op), fun name => h (.constant name),
      fun name => h (.function name), fun name hname => h (.column name) (mem_columns_iff.mp hname)⟩
  · rintro ⟨hoperators, hconstants, hfunctions, hcolumns⟩ l hl
    cases l with
    | operator op => exact hoperators op hl
    | function name => exact hfunctions name hl
    | constant name => exact hconstants name hl
    | column name => exact hcolumns name (mem_columns_iff.mpr hl)

end Expr

/--
An expression has a value in a row exactly if its operators are the six known ones, its constants
and functions stand in their tables and its columns have values in the row; the value is then made
up of those of its parts. Otherwise the error is that of the first name that is missing, in the
order in which the names are looked up. Nothing is ever left unresolved.
-/
theorem value_or_first_missing (e : Expr) (i : Nat) (values : RowValues) :
    ((∃ v, e.evaluate i values = .ok v) ↔
      (∀ op, .operator op ∈ e.lookups → op ∈ ['+', '-', '*', '/', '%', '^']) ∧
      (∀ name, .constant name ∈ e.lookups → Text.lower name ∈ Symbols.constantNames) ∧
      (∀ name, .function name ∈ e.lookups → name ∈ Symbols.functionNames) ∧
      ∀ name ∈ e.columns, name ∈ values.pairs.map (·.1)) ∧
    (∀ v, e.evaluate i values = .ok v ↔ e.HasValue i values v) ∧
    (∀ err, e.evaluate i values = .error err ↔ ∃ before missing after,
      e.lookups = before ++ missing :: after ∧ (∀ l ∈ before, l.Found values) ∧
      ¬ missing.Found values ∧ err = missing.error) ∧
    ∀ left, e.evaluate i values ≠ .error (.unresolved left) := by
  refine ⟨Expr.exists_evaluate_iff.trans Expr.forall_found_iff,
    fun _ => Expr.evaluate_eq_ok_iff_hasValue, fun err => ?_, fun left h => ?_⟩
  · rw [Expr.evaluate_eq_error_iff]
    constructor
    · rintro ⟨missing, hfirst, rfl⟩
      obtain ⟨before, after, hsplit, hbefore, hmissing⟩ := Expr.firstMissing?_eq_some_iff.mp hfirst
      exact ⟨before, missing, after, hsplit, hbefore, hmissing, rfl⟩
    · rintro ⟨before, missing, after, hsplit, hbefore, hmissing, rfl⟩
      exact ⟨missing, Expr.firstMissing?_eq_some_iff.mpr ⟨before, after, hsplit, hbefore, hmissing⟩,
        rfl⟩
  · obtain ⟨missing, -, herror⟩ := Expr.evaluate_eq_error_iff.mp h
    cases missing with
    | _ => cases herror

/-- Names of all tables, and a function that is missed once its argument has a value. -/
theorem value_or_first_missing_argument :
    let e : Expr := .binary (.call "cos" (.column "a")) '^' (.constant "PI")
    let e' : Expr := .binary (.call "f" (.column "a")) '+' (.constant "x")
    (∃ v, e.evaluate 0 ⟨[("a", 1.0)]⟩ = .ok v) ∧
    e'.evaluate 0 ⟨[("b", 1.0)]⟩ = .error (.columnNotFound "a") ∧
    e'.evaluate 0 ⟨[("a", 1.0)]⟩ = .error (.unknownSymbol .function "f") := by
  intro e e'
  have hlookups : e.lookups = [.operator '^', .column "a", .function "cos", .constant "PI"] := rfl
  have herror (values : RowValues) := (value_or_first_missing e' 0 values).2.2.1
  refine ⟨(value_or_first_missing e 0 _).1.mpr ⟨fun op hop => ?_, fun name hname => ?_,
    fun name hname => ?_, by decide⟩, ?_, ?_⟩
  · obtain rfl : op = '^' := by simpa [hlookups] using hop
    decide
  · obtain rfl : name = "PI" := by simpa [hlookups] using hname
    decide
  · obtain rfl : name = "cos" := by simpa [hlookups] using hname
    decide
  · exact (herror _ _).mpr
      ⟨[.operator '+'], .column "a", [.function "f", .constant "x"], rfl, by decide, by decide, rfl⟩
  · exact (herror _ _).mpr
      ⟨[.operator '+', .column "a"], .function "f", [.constant "x"], rfl, by decide, by decide, rfl⟩

end ColumnCalc
