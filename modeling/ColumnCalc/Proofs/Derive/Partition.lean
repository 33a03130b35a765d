import ColumnCalc.Proofs.Derive.Prefolding
import Mathlib.Data.List.Perm.Basic

/-!
# Sources that define columns

A list of sources falls into those that define a column and those that are dropped, each part in the
order of the list (`Deriver.Splits`). What one source comes to does not depend on the others: the
deriver of two lists is the derivers of both, one behind the other, and so are its values
(`ofSources_partition`).
-/

namespace ColumnCalc

namespace Deriver

/-- The source assigns to the column, and the column's expression is what is left of its value. -/
def Defines (source : String) (column : DerivedColumn) : Prop :=
  column.source = source ∧ ∃ value, Formula.parse source = .ok ⟨some column.name, value⟩ ∧
    value.simplify .empty = .ok column.expr

/-- The source assigns to no column, for the reason that is remembered. -/
def IsDropped (source : String) (dropped : DroppedSource) : Prop :=
  dropped.source = source ∧
    ((∃ error, Formula.parse source = .error error ∧ dropped.reason = .unreadable error) ∨
      ∃ value, Formula.parse source = .ok ⟨none, value⟩ ∧ dropped.reason = .missingTarget)

/-- The columns are those of the sources that assign to one; the others are the dropped ones. -/
structure Splits (sources : List String) (d : Deriver) : Prop where
  columns : List.Forall₂ Defines (sources.filter fun s => (assignment? s).isSome) d.columns
  dropped : List.Forall₂ IsDropped (sources.filter fun s => (assignment? s).isNone) d.dropped

variable {a b d : Deriver} {source : String} {sources xs ys : List String} {index : Nat}
  {row : RowValues} {err : DeriveError}

/-! ## One source -/

theorem assignment?_eq_some_iff {name : String} {value : Expr} :
    assignment? source = some (name, value) ↔ Formula.parse source = .ok ⟨some name, value⟩ := by
  unfold assignment?
  split
  · rename_i hparse
    rw [hparse]
    simp
  · rename_i hother
    simp only [reduceCtorEq, false_iff]
    exact hother name value

theorem splits_ofSource (h : ofSource source = .ok d) : Splits [source] d := by
  unfold ofSource at h
  split at h
  · rename_i error hparse
    cases h
    have hnone : assignment? source = none := by
      simp only [assignment?, hparse]
    exact ⟨by simp [hnone], by simpa [hnone] using ⟨rfl, .inl ⟨error, hparse, rfl⟩⟩⟩
  · rename_i value hparse
    cases h
    have hnone : assignment? source = none := by
      simp only [assignment?, hparse]
    exact ⟨by simp [hnone], by simpa [hnone] using ⟨rfl, .inr ⟨value, hparse, rfl⟩⟩⟩
  · rename_i name value hparse
    split at h
    · cases h
    · rename_i expr hfold
      cases h
      have hsome := assignment?_eq_some_iff.mpr hparse
      exact ⟨by simpa [hsome] using ⟨rfl, value, hparse, hfold⟩, by simp [hsome]⟩

/-- A source keeps a deriver from being made if it assigns a value that cannot be folded. -/
theorem ofSource_eq_error_iff : ofSource source = .error err ↔ ∃ name value error,
    Formula.parse source = .ok ⟨some name, value⟩ ∧ value.simplify .empty = .error error ∧
      err = .source source error := by
  constructor
  · intro h
    obtain ⟨name, value, error, hassignment, herr, hfold⟩ := exists_of_ofSource_error h
    exact ⟨name, value, error, assignment?_eq_some_iff.mp hassignment, hfold, herr⟩
  · rintro ⟨name, value, error, hparse, hfold, rfl⟩
    simp only [ofSource, hparse, hfold]

theorem exists_ofSource_iff : (∃ d, ofSource source = .ok d) ↔ ∀ name value,
    Formula.parse source = .ok ⟨some name, value⟩ → ∃ expr, value.simplify .empty = .ok expr := by
  constructor
  · rintro ⟨d, hd⟩ name value hparse
    cases hfold : value.simplify .empty with
    | ok expr => exact ⟨expr, rfl⟩
    | error error =>
      have herror := ofSource_eq_error_iff.mpr ⟨name, value, error, hparse, hfold, rfl⟩
      cases hd.symm.trans herror
  · intro h
    cases hd : ofSource source with
    | ok d => exact ⟨d, rfl⟩
    | error err =>
      obtain ⟨name, value, error, hparse, hfold, -⟩ := ofSource_eq_error_iff.mp hd
      obtain ⟨expr, hexpr⟩ := h name value hparse
      cases hexpr.symm.trans hfold

/-! ## Lists of sources -/

theorem append_assoc (a b c : Deriver) : (a.append b).append c = a.append (b.append c) := by
  simp only [append, List.append_assoc]

theorem Splits.append (ha : Splits xs a) (hb : Splits ys b) : Splits (xs ++ ys) (a.append b) where
  columns := by
    rw [List.filter_append]
    exact List.rel_append ha.columns hb.columns
  dropped := by
    rw [List.filter_append]
    exact List.rel_append ha.dropped hb.dropped

theorem splits_ofSources (h : ofSources sources = .ok d) : Splits sources d := by
  induction sources generalizing d with
  | nil =>
    cases h
    exact ⟨.nil, .nil⟩
  | cons source others ih =>
    obtain ⟨first, hfirst, h⟩ := bind_eq_ok_iff.mp h
    obtain ⟨rest, hrest, h⟩ := bind_eq_ok_iff.mp h
    cases h
    exact (splits_ofSource hfirst).append (ih hrest)

/-- Every source is in one of the two parts, as often as it is in the list. -/
theorem Splits.perm (h : Splits sources d) :
    (d.columns.map (·.source) ++ d.dropped.map (·.source)).Perm sources := by
  have hcolumns : d.columns.map (·.source) = sources.filter fun s => (assignment? s).isSome := by
    have hsources := h.columns.flip.imp fun _ _ (hdefines : Defines _ _) => hdefines.1
    simpa using map_eq_map_iff_forall₂.mpr hsources
  have hdropped : d.dropped.map (·.source) = sources.filter fun s => !(assignment? s).isSome := by
    have hsources := h.dropped.flip.imp fun _ _ (hdropped : IsDropped _ _) => hdropped.1
    simpa using map_eq_map_iff_forall₂.mpr hsources
  rw [hcolumns, hdropped]
  exact List.filter_append_perm _ _

theorem ofSources_eq_mapM (sources : List String) :
    ofSources sources = (sources.mapM ofSource).map (List.foldr append empty) := by
  induction sources with
  | nil => rfl
  | cons source others ih =>
    rw [ofSources, ih, List.mapM_cons]
    cases ofSource source with
    | error err => rfl
    | ok first =>
      cases others.mapM ofSource with
      | error err => rfl
      | ok rest => rfl

theorem ofSources_eq_error_iff : ofSources sources = .error err ↔
    ∃ front source back, sources = front ++ source :: back ∧
      (∀ s ∈ front, ∃ d, ofSource s = .ok d) ∧ ofSource source = .error err := by
  rw [ofSources_eq_mapM, map_eq_error_iff, mapM_eq_error_iff]

theorem ofSources_append (ha : ofSources xs = .ok a) (hb : ofSources ys = .ok b) :
    ofSources (xs ++ ys) = .ok (a.append b) := by
  induction xs generalizing a with
  | nil =>
    cases ha
    exact hb
  | cons source others ih =>
    obtain ⟨first, hfirst, ha⟩ := bind_eq_ok_iff.mp ha
    obtain ⟨rest, hrest, ha⟩ := bind_eq_ok_iff.mp ha
    cases ha
    rw [append_assoc]
    exact bind_eq_ok_iff.mpr ⟨first, hfirst, bind_eq_ok_iff.mpr ⟨_, ih hrest, rfl⟩⟩

theorem values_append (a b : Deriver) (index : Nat) (row : RowValues) :
    (a.append b).values index row = a.values index row >>= fun vs =>
      b.values index row >>= fun ws => .ok (vs ++ ws) :=
  List.mapM_append

end Deriver

/--
A deriver keeps of each source either the column that it defines, with the value folded without a
row, or the reason why it defines none; columns and dropped sources stand in the order of the list.
There is no deriver exactly if some source assigns a value that cannot be folded, and the first such
source is the error. Two lists that have derivers have one together: its columns are those of both,
and so are their values in each row, or the error of the first part that has one.
-/
theorem ofSources_partition :
    (∀ sources d, Deriver.ofSources sources = .ok d →
      List.Forall₂ Deriver.Defines (sources.filter fun s => (assignment? s).isSome) d.columns ∧
      List.Forall₂ Deriver.IsDropped (sources.filter fun s => (assignment? s).isNone) d.dropped ∧
      (d.columns.map (·.source) ++ d.dropped.map (·.source)).Perm sources) ∧
    (∀ sources err, Deriver.ofSources sources = .error err ↔
      ∃ front source back name value error, sources = front ++ source :: back ∧
        (∀ s ∈ front, ∀ n v, Formula.parse s = .ok ⟨some n, v⟩ →
          ∃ expr, v.simplify .empty = .ok expr) ∧
        Formula.parse source = .ok ⟨some name, value⟩ ∧ value.simplify .empty = .error error ∧
        err = .source source error) ∧
    ∀ xs ys a b, Deriver.ofSources xs = .ok a → Deriver.ofSources ys = .ok b →
      ∃ d, Deriver.ofSources (xs ++ ys) = .ok d ∧ d.columns = a.columns ++ b.columns ∧
        d.dropped = a.dropped ++ b.dropped ∧ ∀ index row,
          (∀ vs ws, a.values index row = .ok vs → b.values index row = .ok ws →
            d.values index row = .ok (vs ++ ws)) ∧
          (∀ err, a.values index row = .error err → d.values index row = .error err) ∧
          ∀ vs err, a.values index row = .ok vs → b.values index row = .error err →
            d.values index row = .error err := by
  refine ⟨fun sources d h => ?_, fun sources err => ?_, fun xs ys a b ha hb => ?_⟩
  · have hsplits := Deriver.splits_ofSources h
    exact ⟨hsplits.columns, hsplits.dropped, hsplits.perm⟩
  · simp only [Deriver.ofSources_eq_error_iff, Deriver.exists_ofSource_iff,
      Deriver.ofSource_eq_error_iff, exists_and_left]
  · refine ⟨a.append b, Deriver.ofSources_append ha hb, rfl, rfl, fun index row => ?_⟩
    rw [Deriver.values_append]
    refine ⟨fun vs ws hvs hws => ?_, fun err herr => ?_, fun vs err hvs herr => ?_⟩
    · rw [hvs, hws]
      rfl
    · rw [herr]
      rfl
    · rw [hvs, herr]
      rfl

/-- Columns of one name with dropped sources between them, and a source that cannot be folded. -/
theorem ofSources_partition_interleaved :
    let xs := ["b = $x$", "3 + 4", "b = 2 * 3"]
    let ys := ["1 +", "c = f($y$)"]
    let a : Deriver := ⟨[⟨"b", "b = $x$", .column "x"⟩, ⟨"b", "b = 2 * 3", .literal 6.0⟩],
      [⟨"3 + 4", .missingTarget⟩]⟩
    let b : Deriver := ⟨[⟨"c", "c = f($y$)", .call "f" (.column "y")⟩],
      [⟨"1 +", .unreadable (.single .noAlternative [])⟩]⟩
    let row : RowValues := ⟨[("x", 1.0), ("y", 2.0)]⟩
    let unknown : EvalError := .unknownSymbol .function "f"
    Deriver.ofSources xs = .ok a ∧ Deriver.ofSources ys = .ok b ∧
    (∃ d, Deriver.ofSources (xs ++ ys) = .ok d ∧ d.columns = a.columns ++ b.columns ∧
      d.dropped = a.dropped ++ b.dropped ∧
      (d.columns.map (·.source) ++ d.dropped.map (·.source)).Perm (xs ++ ys) ∧
      d.values 3 row = .error (.row 3 "c" unknown)) ∧
    Deriver.ofSources ["1 +", "x = f(1)", "y = f(2)"] = .error (.source "x = f(1)" unknown) := by
  intro xs ys a b row unknown
  obtain ⟨hsplits, herror, happend⟩ := ofSources_partition
  have ha : Deriver.ofSources xs = .ok a := by decide +kernel
  have hb : Deriver.ofSources ys = .ok b := by decide +kernel
  obtain ⟨d, hd, hcolumns, hdropped, hvalues⟩ := happend xs ys a b ha hb
  obtain ⟨-, -, hfails⟩ := hvalues 3 row
  refine ⟨ha, hb, ⟨d, hd, hcolumns, hdropped, (hsplits _ d hd).2.2, ?_⟩, ?_⟩
  · exact hfails [1.0, 6.0] _ (by decide +kernel) (by decide +kernel)
  · refine (herror _ _).mpr ⟨["1 +"], "x = f(1)", ["y = f(2)"], "x", .call "f" (.literal 1.0),
      unknown, rfl, fun s hs n v hparse => ?_, by decide +kernel, by decide +kernel, rfl⟩
    obtain rfl := List.mem_singleton.mp hs
    have hunreadable : Formula.parse "1 +" = .error (.single .noAlternative []) := by
      decide +kernel
    cases hunreadable.symm.trans hparse

end ColumnCalc
