import ColumnCalc.Proofs.Eval.References

/-!
# What simplifying leaves

A simplified expression holds nothing that its context could still resolve or compute
(`Expr.Irreducible`). Since it refers to all that the context does not know, it is a number exactly
if the context knows all that the expression refers to (`simplify_normal_form`).
-/

namespace ColumnCalc

namespace Expr

/-- The expression and all that it is made up of. -/
def parts : Expr → List Expr
  | literal v => [literal v]
  | column name => [column name]
  | row => [row]
  | constant name => [constant name]
  | call function argument => call function argument :: argument.parts
  | binary left op right => binary left op right :: (left.parts ++ right.parts)

/-- The context neither knows what the expression stands for nor has numbers to compute it from. -/
structure Irreducible (known : Context) (e : Expr) : Prop where
  constant : ∀ name, e ≠ constant name
  call : ∀ function x, e ≠ call function (literal x)
  binary : ∀ x op y, e ≠ binary (literal x) op (literal y)
  row : known.index.isSome = true → e ≠ row
  column : known.values.isSome = true → ∀ name, e ≠ column name

variable {known : Context} {e e' l r : Expr}

/-! ## Nodes -/

theorem irreducible_literal (v : Float) : (literal v).Irreducible known :=
  ⟨nofun, nofun, nofun, nofun, nofun⟩

theorem irreducible_column {name : String} (h : known.values = none) :
    (column name).Irreducible known :=
  ⟨nofun, nofun, nofun, nofun, by simp [h]⟩

theorem irreducible_row (h : known.index = none) : row.Irreducible known :=
  ⟨nofun, nofun, nofun, by simp [h], nofun⟩

theorem irreducible_call {function : String} (h : ∀ x, e ≠ literal x) :
    (call function e).Irreducible known := by
  refine ⟨nofun, fun _ x heq => ?_, nofun, nofun, nofun⟩
  cases heq
  exact h x rfl

theorem irreducible_binary {op : Char} (h : ∀ x y, l = literal x → r ≠ literal y) :
    (binary l op r).Irreducible known := by
  refine ⟨nofun, nofun, fun x _ y heq => ?_, nofun, nofun⟩
  cases heq
  exact h x y rfl rfl

/-! ## Trees -/

/-- No part of a simplified expression can be reduced. -/
theorem irreducible_of_simplify (h : e.simplify known = .ok e') :
    ∀ t ∈ e'.parts, t.Irreducible known := by
  have hliteral : ∀ v, ∀ t ∈ (literal v).parts, t.Irreducible known := fun v =>
    List.forall_mem_singleton.mpr (irreducible_literal v)
  rw [simplify_eq_ok_iff] at h
  induction h with
  | literal _ | column _ _ | row _ | constant _ | call _ _ _ | binary _ _ _ _ _ => exact hliteral _
  | columnKept hvalues => exact List.forall_mem_singleton.mpr (irreducible_column hvalues)
  | rowKept hindex => exact List.forall_mem_singleton.mpr (irreducible_row hindex)
  | callKept _ hkept ih => exact List.forall_mem_cons.mpr ⟨irreducible_call hkept, ih⟩
  | binaryKept _ _ _ hkept ihl ihr =>
    exact List.forall_mem_cons.mpr
      ⟨irreducible_binary hkept, List.forall_mem_append.mpr ⟨ihl, ihr⟩⟩

/-- Without references, only a number cannot be reduced. -/
theorem exists_literal_of_irreducible (h : ∀ t ∈ e.parts, t.Irreducible known)
    (hrefs : e.references = []) : ∃ v, e = literal v := by
  induction e with
  | literal v => exact ⟨v, rfl⟩
  | column name => cases hrefs
  | row => cases hrefs
  | constant name => exact absurd rfl ((h _ (.head _)).constant name)
  | call function argument ih =>
    obtain ⟨hcall, hargument⟩ := List.forall_mem_cons.mp h
    obtain ⟨x, rfl⟩ := ih hargument hrefs
    exact absurd rfl (hcall.call function x)
  | binary left op right ihl ihr =>
    obtain ⟨hbinary, hoperands⟩ := List.forall_mem_cons.mp h
    obtain ⟨hleft, hright⟩ := List.forall_mem_append.mp hoperands
    obtain ⟨hlrefs, hrrefs⟩ := List.append_eq_nil_iff.mp hrefs
    obtain ⟨x, rfl⟩ := ihl hleft hlrefs
    obtain ⟨y, rfl⟩ := ihr hright hrrefs
    exact absurd rfl (hbinary.binary x op y)

end Expr

/--
What simplifying leaves of an expression cannot be simplified further anywhere. It refers to just
what the context does not know, as often and in the order in which the expression does, and is a
number exactly if there is no such thing. Without a row no reference to a column is lost.
-/
theorem simplify_normal_form (e e' : Expr) (known : Context) (h : e.simplify known = .ok e') :
    (∀ t ∈ e'.parts, t.Irreducible known) ∧
    e'.references = e.references.filter (fun ref => (known.value? ref).isNone) ∧
    ((∃ v, e' = .literal v) ↔ ∀ ref ∈ e.references, (known.value? ref).isSome = true) ∧
    (known.values = none → e'.columns = e.columns) := by
  have hirreducible := Expr.irreducible_of_simplify h
  have hrefs := Expr.references_of_simplify h
  refine ⟨hirreducible, hrefs, ?_, fun hvalues => Expr.columns_of_simplify hvalues h⟩
  have hbound : e'.references = [] ↔ ∀ ref ∈ e.references, (known.value? ref).isSome = true := by
    simp [hrefs, List.filter_eq_nil_iff, Option.isSome_iff_ne_none]
  rw [← hbound]
  constructor
  · rintro ⟨v, rfl⟩
    rfl
  · exact Expr.exists_literal_of_irreducible hirreducible

/-- Zero times a cell is left, and so is a call whose argument is not known. -/
theorem simplify_normal_form_index :
    let e : Expr := .binary (.binary (.literal 0.0) '*' (.column "a")) '-'
      (.binary (.call "f" (.column "b")) '+' (.binary .row '/' (.literal 2.0)))
    let e' : Expr := .binary (.binary (.literal 0.0) '*' (.column "a")) '-'
      (.binary (.call "f" (.column "b")) '+' (.literal 1.5))
    let known : Context := ⟨some 3, none⟩
    e.simplify known = .ok e' ∧ (∀ t ∈ e'.parts, t.Irreducible known) ∧
    e'.references = [.column "a", .column "b"] ∧ ¬ (∃ v, e' = .literal v) ∧
    e'.columns = e.columns := by
  intro e e' known
  have h : e.simplify known = .ok e' := by decide +kernel
  obtain ⟨hirreducible, hrefs, hliteral, hcolumns⟩ := simplify_normal_form e e' known h
  refine ⟨h, hirreducible, hrefs, fun hv => ?_, hcolumns rfl⟩
  exact absurd (hliteral.mp hv (.column "a") (by decide)) (by decide)

end ColumnCalc
