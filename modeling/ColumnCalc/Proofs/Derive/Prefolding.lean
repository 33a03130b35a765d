import ColumnCalc.Derive.Deriver
import ColumnCalc.Proofs.Eval.Staging
import Mathlib.Data.List.Forall2

/-!
# Folding before the first row

A deriver keeps of each source what is left when everything that needs no row has been computed. Its
values in a row are those of the sources as they were written (`values_of_ofSources`), and where
there is no deriver, the source to blame has no value in any row (`evaluate_of_ofSources_error`).
-/

namespace ColumnCalc

/-- A target with its expression as the source has it, if the source defines a column. -/
def assignment? (source : String) : Option (String × Expr) :=
  match Formula.parse source with
  | .ok ⟨some name, value⟩ => some (name, value)
  | _ => none

/-- The value of one column in a row, its expression taken as it is. -/
def columnValue (index : Nat) (row : RowValues) (column : String × Expr) :
    Except DeriveError Float :=
  match column.2.evaluate index row with
  | .ok v => .ok v
  | .error error => .error (.row index column.1 error)

/-- The values of all columns that the sources define, nothing computed beforehand. -/
def unfoldedValues (sources : List String) (index : Nat) (row : RowValues) :
    Except DeriveError (List Float) :=
  (sources.filterMap assignment?).mapM (columnValue index row)

/-- A column that was made of the assignment. -/
def IsFolded (column : DerivedColumn) (assignment : String × Expr) : Prop :=
  column.name = assignment.1 ∧ assignment.2.simplify .empty = .ok column.expr

namespace Deriver

variable {d : Deriver} {source : String} {sources : List String} {index : Nat} {row : RowValues}
  {err : DeriveError}

/-! ## Columns -/

theorem forall₂_ofSource (h : ofSource source = .ok d) :
    List.Forall₂ IsFolded d.columns (assignment? source).toList := by
  unfold ofSource at h
  unfold assignment?
  split at h
  · rename_i hparse
    cases h
    rw [hparse]
    exact .nil
  · rename_i hparse
    cases h
    rw [hparse]
    exact .nil
  · rename_i name value hparse
    split at h
    · cases h
    · rename_i expr hfold
      cases h
      rw [hparse]
      exact .cons ⟨rfl, hfold⟩ .nil

/-- The columns are the folded assignments of the sources, in their order. -/
theorem forall₂_ofSources (h : ofSources sources = .ok d) :
    List.Forall₂ IsFolded d.columns (sources.filterMap assignment?) := by
  induction sources generalizing d with
  | nil =>
    cases h
    exact .nil
  | cons source others ih =>
    obtain ⟨first, hfirst, h⟩ := bind_eq_ok_iff.mp h
    obtain ⟨rest, hrest, h⟩ := bind_eq_ok_iff.mp h
    cases h
    have hsplit : (source :: others).filterMap assignment?
        = (assignment? source).toList ++ others.filterMap assignment? := by
      cases h : assignment? source with
      | none => simp [h]
      | some a => simp [h]
    rw [hsplit]
    exact List.rel_append (forall₂_ofSource hfirst) (ih hrest)

/-! ## Values -/

theorem columnValue_eq_ok_iff {column : String × Expr} {v : Float} :
    columnValue index row column = .ok v ↔ column.2.evaluate index row = .ok v := by
  unfold columnValue
  cases column.2.evaluate index row with
  | error e => simp
  | ok w => simp

theorem columnValue_eq_error_iff {column : String × Expr} :
    columnValue index row column = .error err ↔
    ∃ e, column.2.evaluate index row = .error e ∧ err = .row index column.1 e := by
  unfold columnValue
  cases column.2.evaluate index row with
  | error e => simp [eq_comm]
  | ok w => simp

theorem values_eq_mapM : d.values index row
    = d.columns.mapM fun column => columnValue index row (column.name, column.expr) := rfl

theorem exists_values_iff : (∃ vs, d.values index row = .ok vs) ↔
    ∀ column ∈ d.columns, ∃ v, column.expr.evaluate index row = .ok v := by
  simp only [values_eq_mapM, exists_mapM_eq_ok_iff, columnValue_eq_ok_iff]

/-- The values of a row fail with the first column, in the order of the columns, that has none. -/
theorem values_eq_error_iff : d.values index row = .error err ↔
    ∃ front column back e, d.columns = front ++ column :: back ∧
      (∀ c ∈ front, ∃ v, c.expr.evaluate index row = .ok v) ∧
      column.expr.evaluate index row = .error e ∧ err = .row index column.name e := by
  simp only [values_eq_mapM, mapM_eq_error_iff, columnValue_eq_ok_iff, columnValue_eq_error_iff,
    exists_and_left]

theorem mapM_of_isFolded {columns : List DerivedColumn} {assignments : List (String × Expr)}
    (h : List.Forall₂ IsFolded columns assignments) :
    (columns.mapM fun column => columnValue index row (column.name, column.expr))
      = assignments.mapM (columnValue index row) := by
  induction h with
  | nil => rfl
  | cons hcolumn _ ih =>
    obtain ⟨hname, hfold⟩ := hcolumn
    rw [List.mapM_cons, List.mapM_cons, ih]
    simp only [columnValue, Expr.evaluate_of_simplify_empty hfold, hname]

theorem values_of_ofSources (h : ofSources sources = .ok d) :
    d.values index row = unfoldedValues sources index row :=
  mapM_of_isFolded (forall₂_ofSources h)

theorem exists_of_ofSource_error (h : ofSource source = .error err) :
    ∃ name value error, assignment? source = some (name, value) ∧ err = .source source error ∧
      value.simplify .empty = .error error := by
  unfold ofSource at h
  split at h
  · cases h
  · cases h
  · rename_i name value hparse
    split at h
    · rename_i error hfold
      cases h
      refine ⟨name, value, error, ?_, rfl, hfold⟩
      simp only [assignment?, hparse]
    · cases h

/-- Without a deriver there is a source that has no value in any row. -/
theorem evaluate_of_ofSources_error (h : ofSources sources = .error err) :
    ∃ source name value error, source ∈ sources ∧ assignment? source = some (name, value) ∧
      err = .source source error ∧
      ∀ index row, ∃ error', value.evaluate index row = .error error' := by
  induction sources with
  | nil => cases h
  | cons source others ih =>
    rcases bind_eq_error_iff.mp h with hfirst | ⟨first, -, h⟩
    · obtain ⟨name, value, error, hsource, rfl, hfold⟩ := exists_of_ofSource_error hfirst
      exact ⟨source, name, value, error, .head _, hsource, rfl,
        fun _ _ => Expr.evaluate_of_error hfold⟩
    · rcases bind_eq_error_iff.mp h with hrest | ⟨rest, -, h⟩
      · obtain ⟨source', name, value, error, hmem, hsource, rfl, hrows⟩ := ih hrest
        exact ⟨source', name, value, error, .tail _ hmem, hsource, rfl, hrows⟩
      · cases h

end Deriver

/--
Simplifying under one context and then under another one is simplifying under both, whatever the
tree; a failure under one stays a failure under both. So a context adds nothing to what it
simplified, folding before the first row changes no value and no error of a row, and where it fails
no row has a value.
-/
theorem simplify_staged :
    (∀ (e : Expr) (a b : Context),
      (∀ e', e.simplify a = .ok e' → e'.simplify b = e.simplify (a.orElse b)) ∧
      (∀ err, e.simplify a = .error err → ∃ err', e.simplify (a.orElse b) = .error err')) ∧
    (∀ (e e' : Expr) (a : Context), e.simplify a = .ok e' → e'.simplify a = .ok e') ∧
    (∀ sources d, Deriver.ofSources sources = .ok d →
      ∀ index row, d.values index row = unfoldedValues sources index row) ∧
    (∀ sources err, Deriver.ofSources sources = .error err →
      ∃ source name value error, source ∈ sources ∧ assignment? source = some (name, value) ∧
        err = .source source error ∧
        ∀ index row, ∃ error', value.evaluate index row = .error error') := by
  refine ⟨fun e a b => ⟨fun e' h => ?_, fun err h => ?_⟩, fun e e' a h => ?_, ?_, ?_⟩
  · exact Expr.simplify_of_simplify_eq_ok h
  · exact Expr.simplify_orElse_of_error h
  · exact Expr.simplify_idem h
  · exact fun _ _ h _ _ => Deriver.values_of_ofSources h
  · exact fun _ _ h => Deriver.evaluate_of_ofSources_error h

/-- A function that does not exist is missed as soon as its argument is known, and not before. -/
theorem simplify_staged_unknown_function :
    let e : Expr := .binary .row '+' (.call "f" (.column "x"))
    let a : Context := ⟨some 2, none⟩
    let b : Context := ⟨none, some ⟨[("x", 1.0)]⟩⟩
    e.simplify a = .ok (.binary (.literal 2.0) '+' (.call "f" (.column "x"))) ∧
    (Expr.binary (.literal 2.0) '+' (.call "f" (.column "x"))).simplify b
      = e.simplify (a.orElse b) ∧
    e.simplify (a.orElse b) = .error (.unknownSymbol .function "f") := by
  intro e a b
  have hfirst : e.simplify a = .ok (.binary (.literal 2.0) '+' (.call "f" (.column "x"))) := by
    decide +kernel
  have hboth : e.simplify (a.orElse b) = .error (.unknownSymbol .function "f") := by
    decide +kernel
  exact ⟨hfirst, (simplify_staged.1 e a b).1 _ hfirst, hboth⟩

end ColumnCalc
