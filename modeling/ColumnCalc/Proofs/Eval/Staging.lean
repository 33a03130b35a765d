import ColumnCalc.Proofs.Eval.Rules

/-!
# Simplifying in stages

What one context knows can be put in first and what another one knows later: the result is that of
both at once (`simplify_of_simplify_eq_ok`). A failure of the first stage stays a failure however
much is known (`simplify_orElse_of_error`), though an error that both at once meet earlier may take
its place.
-/

namespace ColumnCalc

namespace Context

variable {a b : Context}

@[simp]
theorem orElse_self (a : Context) : a.orElse a = a := by
  obtain ⟨index, values⟩ := a
  cases index <;> cases values <;> rfl

@[simp]
theorem empty_orElse (b : Context) : empty.orElse b = b := rfl

theorem orElse_index_of_some {i : Nat} (h : a.index = some i) : (a.orElse b).index = some i := by
  simp [orElse, h]

theorem orElse_index_of_none (h : a.index = none) : (a.orElse b).index = b.index := by
  simp [orElse, h]

theorem orElse_values_of_some {v : RowValues} (h : a.values = some v) :
    (a.orElse b).values = some v := by
  simp [orElse, h]

theorem orElse_values_of_none (h : a.values = none) : (a.orElse b).values = b.values := by
  simp [orElse, h]

end Context

namespace Expr

variable {a b : Context} {e e' : Expr} {err : EvalError}

/-! ## Trees -/

/-- What a context left in a tree is simplified later as it would have been at once. -/
theorem simplify_of_simplify_eq_ok (h : e.simplify a = .ok e') :
    e'.simplify b = e.simplify (a.orElse b) := by
  rw [simplify_eq_ok_iff] at h
  induction h with
  | literal v => rfl
  | columnKept hvalues => simp only [simplify, Context.orElse_values_of_none hvalues]
  | column hvalues hget => simp only [simplify, Context.orElse_values_of_some hvalues, hget]
  | rowKept hindex => simp only [simplify, Context.orElse_index_of_none hindex]
  | row hindex => simp only [simplify, Context.orElse_index_of_some hindex]
  | constant htable => simp only [simplify, htable]
  | callKept _ _ ih => rw [simplify_call, simplify_call, ih]
  | call _ htable ih =>
    rw [simplify_call, ← ih]
    simp only [simplify, bind, Except.bind, applyCall, htable]
  | binaryKept htable _ _ _ ihl ihr => rw [simplify_binary htable, simplify_binary htable, ihl, ihr]
  | binary htable _ _ ihl ihr =>
    rw [simplify_binary htable, ← ihl, ← ihr]
    rfl

/-- Knowing more repairs no failure; of two operands that fail the left one is the error. -/
theorem simplify_orElse_of_error (h : e.simplify a = .error err) :
    ∃ err', e.simplify (a.orElse b) = .error err' := by
  simp only [simplify_eq_error_iff] at h ⊢
  induction h with
  | column hvalues hget => exact ⟨_, .column (Context.orElse_values_of_some hvalues) hget⟩
  | constant htable => exact ⟨_, .constant htable⟩
  | argument _ ih => exact ih.imp fun _ => .argument
  | function hargument htable =>
    have hliteral := simplify_of_simplify_eq_ok (b := b) hargument.simplify
    exact ⟨_, .function (simplify_eq_ok_iff.mp hliteral.symm) htable⟩
  | operator htable => exact ⟨_, .operator htable⟩
  | left htable _ ih => exact ih.imp fun _ => .left htable
  | @right left _ _ _ _ _ htable _ _ ih =>
    rcases simplifies_or_failsWith (a.orElse b) left with ⟨left', hleft⟩ | ⟨err', hleft⟩
    · exact ih.imp fun _ => .right htable hleft
    · exact ⟨err', .left htable hleft⟩

/-- A context has nothing to add to what it simplified itself. -/
theorem simplify_idem (h : e.simplify a = .ok e') : e'.simplify a = .ok e' := by
  rw [simplify_of_simplify_eq_ok h, Context.orElse_self, h]

/-! ## Rows -/

theorem evaluate_of_simplify_empty {index : Nat} {values : RowValues}
    (h : e.simplify .empty = .ok e') : e'.evaluate index values = e.evaluate index values := by
  unfold evaluate
  rw [simplify_of_simplify_eq_ok h, Context.empty_orElse]

theorem evaluate_of_error {index : Nat} {values : RowValues}
    (h : e.simplify .empty = .error err) : ∃ err', e.evaluate index values = .error err' := by
  obtain ⟨err', hfull⟩ := simplify_orElse_of_error (b := .full index values) h
  rw [Context.empty_orElse] at hfull
  exact ⟨err', bind_eq_error_iff.mpr (.inl hfull)⟩

end Expr

end ColumnCalc
