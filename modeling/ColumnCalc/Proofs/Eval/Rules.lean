import ColumnCalc.Eval.Simplify
import ColumnCalc.Proofs.Results

/-!
# The rules of simplifying

What `Expr.simplify` makes of an expression is told by one rule for each way in which a node is kept
or computed (`Expr.Simplifies`), and why it fails by one rule for each name that can be missing and
each place where it can be missing (`Expr.FailsWith`). The function follows the rules and does
nothing else (`Expr.simplify_eq_ok_iff`, `Expr.simplify_eq_error_iff`), so what holds of all results
or of all failures is proved by induction on the rules.
-/

namespace ColumnCalc

namespace Expr

/-- The second expression is what a context leaves of the first one. -/
inductive Simplifies (known : Context) : Expr → Expr → Prop where
  | literal (v : Float) : Simplifies known (literal v) (literal v)
  | columnKept {name : String} (hvalues : known.values = none) :
    Simplifies known (column name) (column name)
  | column {name : String} {values : RowValues} {v : Float} (hvalues : known.values = some values)
      (hget : values.get? name = some v) : Simplifies known (column name) (literal v)
  | rowKept (hindex : known.index = none) : Simplifies known row row
  | row {index : Nat} (hindex : known.index = some index) :
    Simplifies known row (literal (Float.ofNat index))
  | constant {name : String} {v : Float} (htable : Symbols.constant? name = some v) :
    Simplifies known (constant name) (literal v)
  | callKept {function : String} {argument argument' : Expr}
      (hargument : Simplifies known argument argument') (hkept : ∀ x, argument' ≠ literal x) :
    Simplifies known (call function argument) (call function argument')
  | call {function : String} {argument : Expr} {x : Float} {f : Float → Float}
      (hargument : Simplifies known argument (literal x))
      (htable : Symbols.function? function = some f) :
    Simplifies known (call function argument) (literal (f x))
  | binaryKept {left left' right right' : Expr} {op : Char} {f : Float → Float → Float}
      (htable : Symbols.operator? op = some f) (hleft : Simplifies known left left')
      (hright : Simplifies known right right')
      (hkept : ∀ x y, left' = literal x → right' ≠ literal y) :
    Simplifies known (binary left op right) (binary left' op right')
  | binary {left right : Expr} {op : Char} {x y : Float} {f : Float → Float → Float}
      (htable : Symbols.operator? op = some f) (hleft : Simplifies known left (literal x))
      (hright : Simplifies known right (literal y)) :
    Simplifies known (binary left op right) (literal (f x y))

/--
The error is why an expression cannot be simplified. A function is missed only once its argument is
a number, an operator before its operands are looked at.
-/
inductive FailsWith (known : Context) : Expr → EvalError → Prop where
  | column {name : String} {values : RowValues} (hvalues : known.values = some values)
      (hget : values.get? name = none) : FailsWith known (column name) (.columnNotFound name)
  | constant {name : String} (htable : Symbols.constant? name = none) :
    FailsWith known (constant name) (.unknownSymbol .constant name)
  | argument {function : String} {argument : Expr} {err : EvalError}
      (hargument : FailsWith known argument err) : FailsWith known (call function argument) err
  | function {function : String} {argument : Expr} {x : Float}
      (hargument : Simplifies known argument (literal x))
      (htable : Symbols.function? function = none) :
    FailsWith known (call function argument) (.unknownSymbol .function function)
  | operator {left right : Expr} {op : Char} (htable : Symbols.operator? op = none) :
    FailsWith known (binary left op right) (.unknownSymbol .operator op.toString)
  | left {left right : Expr} {op : Char} {err : EvalError} {f : Float → Float → Float}
      (htable : Symbols.operator? op = some f) (hleft : FailsWith known left err) :
    FailsWith known (binary left op right) err
  | right {left left' right : Expr} {op : Char} {err : EvalError} {f : Float → Float → Float}
      (htable : Symbols.operator? op = some f) (hleft : Simplifies known left left')
      (hright : FailsWith known right err) : FailsWith known (binary left op right) err

variable {known : Context} {e e' l r : Expr} {err : EvalError} {function : String} {op : Char}
  {f : Float → Float → Float}

/-! ## Nodes -/

theorem simplify_call :
    (call function e).simplify known = e.simplify known >>= applyCall function := rfl

theorem simplify_binary (htable : Symbols.operator? op = some f) :
    (binary l op r).simplify known = l.simplify known >>= fun l =>
      r.simplify known >>= fun r => pure (applyBinary f l op r) := by
  simp only [simplify, htable]

theorem simplify_binary_of_none (htable : Symbols.operator? op = none) :
    (binary l op r).simplify known = .error (.unknownSymbol .operator op.toString) := by
  simp only [simplify, htable]

theorem applyCall_of_kept (hkept : ∀ x, e ≠ literal x) :
    applyCall function e = .ok (call function e) := by
  cases e with
  | literal x => exact absurd rfl (hkept x)
  | _ => rfl

theorem applyBinary_of_kept (hkept : ∀ x y, l = literal x → r ≠ literal y) :
    applyBinary f l op r = binary l op r := by
  unfold applyBinary
  split
  · exact absurd rfl (hkept _ _ rfl)
  · rfl

/-! ## Trees -/

theorem Simplifies.simplify (h : Simplifies known e e') : e.simplify known = .ok e' := by
  induction h with
  | literal v => rfl
  | columnKept hvalues => simp only [Expr.simplify, hvalues]
  | column hvalues hget => simp only [Expr.simplify, hvalues, hget]
  | rowKept hindex => simp only [Expr.simplify, hindex]
  | row hindex => simp only [Expr.simplify, hindex]
  | constant htable => simp only [Expr.simplify, htable]
  | callKept _ hkept ih =>
    rw [simplify_call, ih]
    exact applyCall_of_kept hkept
  | call _ htable ih =>
    rw [simplify_call, ih]
    simp only [bind, Except.bind, applyCall, htable]
  | binaryKept htable _ _ hkept ihl ihr =>
    rw [simplify_binary htable, ihl, ihr]
    exact congrArg Except.ok (applyBinary_of_kept hkept)
  | binary htable _ _ ihl ihr =>
    rw [simplify_binary htable, ihl, ihr]
    rfl

theorem FailsWith.simplify (h : FailsWith known e err) : e.simplify known = .error err := by
  induction h with
  | column hvalues hget => simp only [Expr.simplify, hvalues, hget]
  | constant htable => simp only [Expr.simplify, htable]
  | argument _ ih =>
    rw [simplify_call, ih]
    rfl
  | function hargument htable =>
    rw [simplify_call, hargument.simplify]
    simp only [bind, Except.bind, applyCall, htable]
  | operator htable => exact simplify_binary_of_none htable
  | left htable _ ih =>
    rw [simplify_binary htable, ih]
    rfl
  | right htable hleft _ ih =>
    rw [simplify_binary htable, hleft.simplify, ih]
    rfl

/-- Some rule fits each expression. -/
theorem simplifies_or_failsWith (known : Context) (e : Expr) :
    (∃ e', Simplifies known e e') ∨ ∃ err, FailsWith known e err := by
  induction e with
  | literal v => exact .inl ⟨_, .literal v⟩
  | column name =>
    cases hvalues : known.values with
    | none => exact .inl ⟨_, .columnKept hvalues⟩
    | some values =>
      cases hget : values.get? name with
      | none => exact .inr ⟨_, .column hvalues hget⟩
      | some v => exact .inl ⟨_, .column hvalues hget⟩
  | row =>
    cases hindex : known.index with
    | none => exact .inl ⟨_, .rowKept hindex⟩
    | some index => exact .inl ⟨_, .row hindex⟩
  | constant name =>
    cases htable : Symbols.constant? name with
    | none => exact .inr ⟨_, .constant htable⟩
    | some v => exact .inl ⟨_, .constant htable⟩
  | call function argument ih =>
    obtain ⟨argument', hargument⟩ | ⟨err, hargument⟩ := ih
    · by_cases hkept : ∀ x, argument' ≠ literal x
      · exact .inl ⟨_, .callKept hargument hkept⟩
      · simp only [not_forall, not_not] at hkept
        obtain ⟨x, rfl⟩ := hkept
        cases htable : Symbols.function? function with
        | none => exact .inr ⟨_, .function hargument htable⟩
        | some f => exact .inl ⟨_, .call hargument htable⟩
    · exact .inr ⟨_, .argument hargument⟩
  | binary left op right ihl ihr =>
    cases htable : Symbols.operator? op with
    | none => exact .inr ⟨_, .operator htable⟩
    | some f =>
      obtain ⟨left', hleft⟩ | ⟨err, hleft⟩ := ihl
      · obtain ⟨right', hright⟩ | ⟨err, hright⟩ := ihr
        · by_cases hkept : ∀ x y, left' = literal x → right' ≠ literal y
          · exact .inl ⟨_, .binaryKept htable hleft hright hkept⟩
          · simp only [not_forall, not_not] at hkept
            obtain ⟨x, y, rfl, rfl⟩ := hkept
            exact .inl ⟨_, .binary htable hleft hright⟩
        · exact .inr ⟨_, .right htable hleft hright⟩
      · exact .inr ⟨_, .left htable hleft⟩

theorem simplify_eq_ok_iff : e.simplify known = .ok e' ↔ Simplifies known e e' := by
  refine ⟨fun h => ?_, Simplifies.simplify⟩
  rcases simplifies_or_failsWith known e with ⟨e'', hrules⟩ | ⟨err, hrules⟩
  · cases h.symm.trans hrules.simplify
    exact hrules
  · cases h.symm.trans hrules.simplify

theorem simplify_eq_error_iff : e.simplify known = .error err ↔ FailsWith known e err := by
  refine ⟨fun h => ?_, FailsWith.simplify⟩
  rcases simplifies_or_failsWith known e with ⟨e', hrules⟩ | ⟨err', hrules⟩
  · cases h.symm.trans hrules.simplify
  · cases h.symm.trans hrules.simplify
    exact hrules

end Expr

end ColumnCalc
