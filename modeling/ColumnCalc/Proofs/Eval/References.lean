import ColumnCalc.Proofs.Eval.Staging

/-!
# References to a row

An expression needs of a row the cells that it refers to and no others (`evaluate_congr`).
Simplifying drops no reference that is not known and moves none (`references_of_simplify`), however
little depends on it; a whole row leaves nothing but a number (`simplify_full`).
-/

namespace ColumnCalc

/-- What an expression takes from a row. -/
inductive Reference where
  | column (name : String)
  /-- The index of the row. -/
  | row
  deriving DecidableEq, Repr

/-- The number that a reference stands for. -/
def Context.value? (known : Context) : Reference → Option Float
  | .column name => known.values.bind fun values => values.get? name
  | .row => known.index.map Float.ofNat

/-- The column that a reference names. -/
def Reference.column? : Reference → Option String
  | column name => some name
  | row => none

namespace Expr

/-- The references of an expression from left to right. -/
def references : Expr → List Reference
  | literal _ => []
  | column name => [.column name]
  | row => [.row]
  | constant _ => []
  | call _ argument => argument.references
  | binary left _ right => left.references ++ right.references

variable {a : Context} {e e' : Expr} {i : Nat} {v w : RowValues}

theorem columns_eq_filterMap (e : Expr) : e.columns = e.references.filterMap Reference.column? := by
  induction e with
  | literal v => rfl
  | column name => rfl
  | row => rfl
  | constant name => rfl
  | call function argument ih => exact ih
  | binary left op right ihl ihr => rw [columns, references, List.filterMap_append, ihl, ihr]

/-! ## Trees -/

/-- A simplified expression refers to what the context does not know, in the order of before. -/
theorem references_of_simplify (h : e.simplify a = .ok e') :
    e'.references = e.references.filter fun ref => (a.value? ref).isNone := by
  rw [simplify_eq_ok_iff] at h
  induction h with
  | literal v => rfl
  | columnKept hvalues => simp [references, Context.value?, hvalues]
  | column hvalues hget => simp [references, Context.value?, hvalues, hget]
  | rowKept hindex => simp [references, Context.value?, hindex]
  | row hindex => simp [references, Context.value?, hindex]
  | constant _ => rfl
  | callKept _ _ ih => exact ih
  | call _ _ ih => exact ih
  | binaryKept _ _ _ _ ihl ihr => rw [references, references, List.filter_append, ihl, ihr]
  | @binary left right _ _ _ _ _ _ _ ihl ihr =>
    show [] = (left.references ++ right.references).filter _
    rw [List.filter_append, ← ihl, ← ihr]
    rfl

/-- Simplifying without cells keeps the columns, each in its place. -/
theorem columns_of_simplify (ha : a.values = none) (h : e.simplify a = .ok e') :
    e'.columns = e.columns := by
  rw [columns_eq_filterMap, columns_eq_filterMap, references_of_simplify h, List.filterMap_filter]
  refine List.filterMap_congr fun ref _ => ?_
  cases ref with
  | column name => simp [Context.value?, ha]
  | row => simp [Reference.column?]

theorem exists_literal_of_simplify_full (h : e.simplify (.full i v) = .ok e') :
    ∃ x, e' = literal x := by
  rw [simplify_eq_ok_iff] at h
  induction h with
  | literal x => exact ⟨x, rfl⟩
  | column _ _ | row _ | constant _ | call _ _ _ | binary _ _ _ _ _ => exact ⟨_, rfl⟩
  | columnKept hvalues => cases hvalues
  | rowKept hindex => cases hindex
  | callKept _ hkept ih =>
    obtain ⟨x, hx⟩ := ih
    exact absurd hx (hkept x)
  | binaryKept _ _ _ hkept ihl ihr =>
    obtain ⟨x, hx⟩ := ihl
    obtain ⟨y, hy⟩ := ihr
    exact absurd hy (hkept x y hx)

/-- Rows that agree on the cells an expression refers to give the same result or the same error. -/
theorem simplify_congr {index : Option Nat}
    (h : ∀ name ∈ e.columns, v.get? name = w.get? name) :
    e.simplify ⟨index, some v⟩ = e.simplify ⟨index, some w⟩ := by
  induction e with
  | literal x => rfl
  | column name => simp only [simplify, h name (.head _)]
  | row => rfl
  | constant name => rfl
  | call function argument ih => rw [simplify_call, simplify_call, ih h]
  | binary left op right ihl ihr =>
    have hl := ihl fun name hname => h name (List.mem_append_left _ hname)
    have hr := ihr fun name hname => h name (List.mem_append_right _ hname)
    simp only [simplify, hl, hr]

/-! ## Rows -/

theorem simplify_full (e : Expr) (i : Nat) (v : RowValues) :
    e.simplify (.full i v) = (e.evaluate i v).map literal := by
  unfold evaluate
  cases h : e.simplify (.full i v) with
  | error err => rfl
  | ok e' =>
    obtain ⟨x, rfl⟩ := exists_literal_of_simplify_full h
    rfl

theorem evaluate_congr (h : ∀ name ∈ e.columns, v.get? name = w.get? name) :
    e.evaluate i v = e.evaluate i w := by
  unfold evaluate
  rw [show Context.full i v = ⟨some i, some v⟩ from rfl, simplify_congr h]
  rfl

end Expr

end ColumnCalc
