import ColumnCalc.Proofs.Eval.Staging

/-!
# What a result owes to the numbers

Whether an expression can be simplified, and what tree is left of it, depends on what a context
binds and not on the numbers that it binds: `map_simplify_shape` compares two runs whose contexts
bind the same (`Context.Alike`), up to the numbers in the trees (`Expr.shape`).
-/

namespace ColumnCalc

theorem RowValues.isSome_get?_iff {values : RowValues} {name : String} :
    (values.get? name).isSome = true ↔ name ∈ values.pairs.map (·.1) := by
  simp only [get?, List.lookup_isSome_iff, List.mem_reverse, beq_iff_eq, List.mem_map,
    eq_comm (a := name)]

theorem isSome_eq_isSome_iff {α β : Type} {x : Option α} {y : Option β} :
    x.isSome = y.isSome ↔ (x = none ∧ y = none) ∨ ∃ v w, x = some v ∧ y = some w := by
  cases x <;> cases y <;> simp

namespace Context

/-- Two contexts that bind the same parts of a row and the same ones of some names. -/
structure Alike (a b : Context) (names : List String) : Prop where
  index : a.index.isSome = b.index.isSome
  values : a.values.isSome = b.values.isSome
  keys : ∀ v w, a.values = some v → b.values = some w →
    ∀ name ∈ names, (v.get? name).isSome = (w.get? name).isSome

theorem Alike.mono {a b : Context} {names names' : List String} (h : a.Alike b names)
    (hsub : names' ⊆ names) : a.Alike b names' :=
  ⟨h.index, h.values, fun v w hv hw name hname => h.keys v w hv hw name (hsub hname)⟩

theorem alike_full {i j : Nat} {v w : RowValues} {names : List String}
    (h : ∀ name ∈ names, (v.get? name).isSome = (w.get? name).isSome) :
    (full i v).Alike (full j w) names := by
  refine ⟨rfl, rfl, fun v' w' hv hw => ?_⟩
  cases hv
  cases hw
  exact h

end Context

namespace Expr

/-- The tree with zero in place of every number. -/
def shape : Expr → Expr
  | literal _ => literal 0.0
  | column name => column name
  | row => row
  | constant name => constant name
  | call function argument => call function argument.shape
  | binary left op right => binary left.shape op right.shape

variable {a b : Context} {e : Expr}

@[simp]
theorem shape_shape (e : Expr) : e.shape.shape = e.shape := by
  induction e with
  | call function argument ih => rw [shape, shape, ih]
  | binary left op right ihl ihr => rw [shape, shape, ihl, ihr]
  | _ => rfl

theorem exists_literal_of_shape {v : Float} (h : (literal v).shape = e.shape) :
    ∃ w, e = literal w := by
  cases e with
  | literal w => exact ⟨w, rfl⟩
  | _ => cases h

/-! ## Nodes -/

/-- The shape of the argument shows if a call is computed, and if its function is missed. -/
theorem map_applyCall_shape (function : String) (e : Expr) :
    (applyCall function e).map shape = (applyCall function e.shape).map shape := by
  cases e with
  | literal v =>
    simp only [applyCall, shape]
    cases Symbols.function? function with
    | none => rfl
    | some f => rfl
  | _ => simp [applyCall, Except.map, shape]

theorem shape_applyBinary (f : Float → Float → Float) (l : Expr) (op : Char) (r : Expr) :
    (applyBinary f l op r).shape = (applyBinary f l.shape op r.shape).shape := by
  cases l with
  | literal v =>
    cases r with
    | literal w => rfl
    | _ => simp [applyBinary, shape]
  | _ => simp [applyBinary, shape]

/-! ## Trees -/

/-- The two runs fail alike or leave trees of one shape. -/
theorem map_simplify_shape (h : a.Alike b e.columns) :
    (e.simplify a).map shape = (e.simplify b).map shape := by
  induction e with
  | literal v => rfl
  | column name =>
    rcases isSome_eq_isSome_iff.mp h.values with ⟨ha, hb⟩ | ⟨v, w, ha, hb⟩
    · simp only [simplify, ha, hb]
    · rcases isSome_eq_isSome_iff.mp (h.keys v w ha hb name (.head _)) with
        ⟨hv, hw⟩ | ⟨x, y, hv, hw⟩
      · simp only [simplify, ha, hb, hv, hw]
      · simp only [simplify, ha, hb, hv, hw, Except.map, shape]
  | row =>
    rcases isSome_eq_isSome_iff.mp h.index with ⟨ha, hb⟩ | ⟨i, j, ha, hb⟩
    · simp only [simplify, ha, hb]
    · simp only [simplify, ha, hb, Except.map, shape]
  | constant name => rfl
  | call function argument ih =>
    rw [simplify_call, simplify_call]
    refine map_bind_congr (ih h) fun x y hxy => ?_
    rw [map_applyCall_shape, hxy, ← map_applyCall_shape]
  | binary left op right ihl ihr =>
    cases hop : Symbols.operator? op with
    | none => simp only [simplify, hop]
    | some f =>
      have hleft := ihl (h.mono (List.subset_append_left ..))
      have hright := ihr (h.mono (List.subset_append_right ..))
      rw [simplify_binary hop, simplify_binary hop]
      refine map_bind_congr hleft fun x x' hx => map_bind_congr hright fun y y' hy => ?_
      show Except.ok _ = Except.ok _
      rw [shape_applyBinary, hx, hy, ← shape_applyBinary]

/-! ## Rows -/

theorem evaluate_eq_ok_iff {i : Nat} {v : RowValues} {x : Float} :
    e.evaluate i v = .ok x ↔ e.simplify (.full i v) = .ok (literal x) := by
  unfold evaluate
  rw [bind_eq_ok_iff]
  constructor
  · rintro ⟨simple, hsimple, h⟩
    cases simple with
    | literal y =>
      cases h
      exact hsimple
    | _ => cases h
  · exact fun h => ⟨_, h, rfl⟩

/-- An expression that has a value in one row has one in every row with the same cells filled. -/
theorem exists_evaluate_of_keys {i j : Nat} {v w : RowValues} {x : Float}
    (hkeys : ∀ name ∈ e.columns, (v.get? name).isSome = (w.get? name).isSome)
    (h : e.evaluate i v = .ok x) : ∃ y, e.evaluate j w = .ok y := by
  have hshape := map_simplify_shape (e := e) (Context.alike_full (i := i) (j := j) hkeys)
  rcases map_eq_map_iff.mp hshape with ⟨err, hv, -⟩ | ⟨e', e'', hv, hw, hshape⟩
  · cases (evaluate_eq_ok_iff.mp h).symm.trans hv
  · cases (evaluate_eq_ok_iff.mp h).symm.trans hv
    obtain ⟨y, rfl⟩ := exists_literal_of_shape hshape
    exact ⟨y, evaluate_eq_ok_iff.mpr hw⟩

end Expr

end ColumnCalc
