import ColumnCalc.Proofs.Derive.Failure
import ColumnCalc.Proofs.Eval.Shape

/-!
# Failures that no row makes

Which cells a row has decides whether it has derived values, and not what stands in them. So rows
without cells fail all or not at all (`Deriver.generate_output_of_error`), and so do the selected
records of a table in which no header lacks its cell (`Deriver.transform_error_of_full`): a run that
has written a row does not fail any more.
-/

namespace ColumnCalc

namespace RowValues

variable {headers cells : List String} {name : String}

theorem isSome_get?_ofRecord (h : headers.length ≤ cells.length) :
    ((ofRecord headers cells).get? name).isSome = true ↔ name ∈ headers := by
  have hkeys : (ofRecord headers cells).pairs.map (·.1) = headers := by
    rw [ofRecord, List.map_map]
    exact List.map_fst_zip h
  rw [isSome_get?_iff, hkeys]

end RowValues

namespace Deriver

variable {d : Deriver} {options : TransformOptions} {headers : List String} {i j : Nat}
  {v w : RowValues} {records : List (List String)} {input : Bytes} {err : DeriveError}

theorem exists_values_of_keys
    (hkeys : ∀ name, (v.get? name).isSome = (w.get? name).isSome)
    (h : ∃ vs, d.values i v = .ok vs) : ∃ ws, d.values j w = .ok ws := by
  rw [exists_values_iff] at h ⊢
  intro column hcolumn
  obtain ⟨x, hx⟩ := h column hcolumn
  exact Expr.exists_evaluate_of_keys (fun name _ => hkeys name) hx

/-! ## Rows without cells -/

theorem writeRow_bare_eq_ok {vs : List Float} (h : d.values i .empty = .ok vs) :
    d.writeRow ⟨.all, true⟩ [] i [] = .ok (Csv.writeRecord (vs.map Cell.ofNumber)) := by
  unfold writeRow
  rw [show RowValues.ofRecord [] [] = .empty from rfl, h]
  rfl

theorem writeRow_bare_eq_error (h : d.values i .empty = .error err) :
    d.writeRow ⟨.all, true⟩ [] i [] = .error err :=
  writeRow_eq_error_iff.mpr h

/-- If one row has values, so have all that follow. -/
theorem writeBareRows_of_values {first count : Nat} (h : ∃ vs, d.values i .empty = .ok vs) :
    ∃ output, d.writeBareRows first count = (output, none) := by
  induction count generalizing first with
  | zero => exact ⟨[], rfl⟩
  | succ count ih =>
    obtain ⟨vs, hvalues⟩ := exists_values_of_keys (j := first) (fun _ => rfl) h
    obtain ⟨output, hrest⟩ : ∃ output, d.writeBareRows (first + 1) count = (output, none) := ih
    refine ⟨Csv.writeRecord (vs.map Cell.ofNumber) ++ output, ?_⟩
    simp only [writeBareRows, writeRow_bare_eq_ok hvalues, hrest]

/-- Rows without cells fail at the first one or not at all. -/
theorem writeBareRows_cases (d : Deriver) (first count : Nat) :
    (∃ output, d.writeBareRows first count = (output, none)) ∨
      ∃ err, d.writeBareRows first count = ([], some err) := by
  cases count with
  | zero => exact .inl ⟨[], rfl⟩
  | succ count =>
    cases hvalues : d.values first .empty with
    | ok vs => exact .inl (writeBareRows_of_values ⟨vs, hvalues⟩)
    | error err =>
      refine .inr ⟨err, ?_⟩
      simp only [writeBareRows, writeRow_bare_eq_error hvalues]

theorem generate_output_of_error {n : Nat} (h : (d.generate n).result = .error err) :
    (d.generate n).output = [] ∨ (d.generate n).output = Csv.writeRecord d.names := by
  unfold generate at h ⊢
  split
  · exact .inl rfl
  · rename_i hnone
    rw [hnone] at h
    rcases writeBareRows_cases d 0 n with ⟨output, hrows⟩ | ⟨e, hrows⟩
    · rw [hrows] at h
      cases h
    · rw [hrows]
      exact .inr (List.append_nil _)

/-! ## Tables without missing cells -/

theorem exists_values_of_full {cells cells' : List String} (hcells : headers.length ≤ cells.length)
    (hcells' : headers.length ≤ cells'.length)
    (h : ∃ vs, d.values i (.ofRecord headers cells) = .ok vs) :
    ∃ ws, d.values j (.ofRecord headers cells') = .ok ws := by
  refine exists_values_of_keys (fun name => ?_) h
  rw [Bool.eq_iff_iff, RowValues.isSome_get?_ofRecord hcells,
    RowValues.isSome_get?_ofRecord hcells']

theorem transform_error_of_full
    (htable : Csv.Table.ofBytes input = ⟨.ok headers, records.map .ok⟩)
    (hfull : ∀ r ∈ records, headers.length ≤ r.length)
    (h : (d.transform options input).result = .error err) :
    ∃ i column e, err = .row i column e ∧ i < records.length ∧ options.range.Selects i ∧
      ∀ j < i, ¬ options.range.Selects j := by
  have hheaders : (Csv.Table.ofBytes input).headers = .ok headers := by rw [htable]
  obtain ⟨i, ⟨record, hrecord, hfails⟩, hfirst⟩ := (transform_result_eq_error_iff hheaders).mp h
  rw [htable, List.getElem?_map] at hrecord
  obtain ⟨cells, hcells, rfl⟩ := Option.map_eq_some_iff.mp hrecord
  cases hfails with
  | underivable selected novalues =>
    obtain ⟨_, column, _, e, -, -, -, rfl⟩ := values_eq_error_iff.mp novalues
    have hi := (List.getElem?_eq_some_iff.mp hcells).1
    refine ⟨i, column.name, e, rfl, hi, selected, fun j hj hselects => ?_⟩
    -- An earlier selected record would have values, and then so would the one that fails.
    have hj' : records[j]? = some records[j] := List.getElem?_eq_getElem (Nat.lt_trans hj hi)
    have hrecord' : (Csv.Table.ofBytes input).records[j]? = some (.ok records[j]) := by
      rw [htable, List.getElem?_map, hj']
      rfl
    have hvalues : ∃ vs, d.values j (.ofRecord headers records[j]) = .ok vs := by
      cases hvalues : d.values j (.ofRecord headers records[j]) with
      | ok vs => exact ⟨vs, rfl⟩
      | error err => exact absurd (.underivable hselects hvalues) (hfirst j _ err hj hrecord')
    obtain ⟨ws, hws⟩ := exists_values_of_full (j := i) (hfull _ (List.getElem_mem _))
      (hfull cells (List.mem_of_getElem? hcells)) hvalues
    cases hws.symm.trans novalues

end Deriver

/--
Whether an expression can be simplified, with which error it fails and which tree is left depend on
what is bound, not on the numbers. So generating rows does not fail behind a row that was written,
and a table that can be read and has a cell under every header fails at its first selected record or
not at all.
-/
theorem failure_independent_of_numbers :
    (∀ (e : Expr) (a b : Context), a.Alike b e.columns →
      (∃ err, e.simplify a = .error err ∧ e.simplify b = .error err) ∨
      (∃ l r, e.simplify a = .ok l ∧ e.simplify b = .ok r ∧ l.shape = r.shape)) ∧
    (∀ (d : Deriver) (n : Nat) (err : DeriveError), (d.generate n).result = .error err →
      (d.generate n).output = [] ∨ (d.generate n).output = Csv.writeRecord d.names) ∧
    (∀ (d : Deriver) (options : TransformOptions) (input : Bytes) (headers : List String)
      (records : List (List String)) (err : DeriveError),
      Csv.Table.ofBytes input = ⟨.ok headers, records.map .ok⟩ →
      (∀ r ∈ records, headers.length ≤ r.length) →
      (d.transform options input).result = .error err →
      ∃ i column e, err = .row i column e ∧ i < records.length ∧ options.range.Selects i ∧
        ∀ j < i, ¬ options.range.Selects j) := by
  refine ⟨fun e a b halike => ?_, fun d n err h => ?_,
    fun d options input headers records err => ?_⟩
  · exact map_eq_map_iff.mp (Expr.map_simplify_shape halike)
  · exact Deriver.generate_output_of_error h
  · exact Deriver.transform_error_of_full

/-- A function that does not exist is missed at the first number, whatever number it is. -/
theorem failure_independent_of_numbers_unknown_function :
    let e : Expr := .call "f" (.column "a")
    let a : Context := ⟨none, some ⟨[("a", 1.0)]⟩⟩
    let b : Context := ⟨none, some ⟨[("a", 0.0 / 0.0)]⟩⟩
    let d : Deriver := ⟨[⟨"y", "y = f($a$)", e⟩], []⟩
    let bare : Deriver := ⟨[⟨"y", "y = f(#)", .call "f" .row⟩], []⟩
    let range : RowRange := .of 1 none 1
    ((∃ err, e.simplify a = .error err ∧ e.simplify b = .error err) ∨
      (∃ l r, e.simplify a = .ok l ∧ e.simplify b = .ok r ∧ l.shape = r.shape)) ∧
    ((bare.generate 3).output = [] ∨ (bare.generate 3).output = Csv.writeRecord bare.names) ∧
    ∃ i column err, (d.transform ⟨range, false⟩ (Text.encode "a\n1\n2\n3\n")).result
        = .error (.row i column err) ∧
      i < 3 ∧ range.Selects i ∧ ∀ j < i, ¬ range.Selects j := by
  intro e a b d bare range
  let input := Text.encode "a\n1\n2\n3\n"
  have halike : a.Alike b e.columns := by
    refine ⟨rfl, rfl, fun v w hv hw name hname => ?_⟩
    cases hv
    cases hw
    obtain rfl : name = "a" := List.mem_singleton.mp hname
    rfl
  have hbare : (bare.generate 3).result = .error (.row 0 "y" (.unknownSymbol .function "f")) := by
    decide +kernel
  have hheaders : (Csv.Table.ofBytes input).headers = .ok ["a"] := by decide +kernel
  have hrecords : (Csv.Table.ofBytes input).records = [["1"], ["2"], ["3"]].map .ok := by
    decide +kernel
  have htable : Csv.Table.ofBytes input = ⟨_, _⟩ := congrArg₂ Csv.Table.mk hheaders hrecords
  have hresult : (d.transform ⟨range, false⟩ input).result
      = .error (.row 1 "y" (.unknownSymbol .function "f")) := by
    decide +kernel
  obtain ⟨halikes, hbares, htables⟩ := failure_independent_of_numbers
  obtain ⟨i, column, err, herr, hi⟩ :=
    htables d ⟨range, false⟩ input _ _ _ htable (by decide) hresult
  exact ⟨halikes e a b halike, hbares bare 3 _ hbare, i, column, err, herr ▸ hresult, hi⟩

end ColumnCalc
