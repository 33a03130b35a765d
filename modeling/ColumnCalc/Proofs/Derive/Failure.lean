import ColumnCalc.Proofs.Csv.Cutting
import ColumnCalc.Proofs.Derive.Batch
import ColumnCalc.Proofs.Derive.Prefolding

/-!
# Runs that fail

A run ends with an error exactly if some record fails, and the first record that fails is the one to
blame (`Deriver.transform_result_eq_error_iff`). What was written by then is the whole output of a
run that succeeds: that of the same bytes cut off in front of this record
(`Deriver.transform_take`).
-/

namespace ColumnCalc

namespace Deriver

variable {d : Deriver} {options : TransformOptions} {range : RowRange} {headers cells : List String}
  {index i : Nat} {counts counts' : Summary} {record : Except Csv.Error (List String)}
  {records before : List (Except Csv.Error (List String))} {output : Bytes}
  {error : DeriveError} {input : Bytes}

/-! ## Records that fail -/

/--
The failure of a record at an index. A record that cannot be read fails unless the run has ended
before it, whether it is selected or not; one that can be read fails only if it is selected.
-/
inductive Fails (d : Deriver) (range : RowRange) (headers : List String) (i : Nat) :
    Except Csv.Error (List String) → DeriveError → Prop where
  | unreadable {e : Csv.Error} (reached : ∀ stop, range.stop = some stop → i ≤ stop) :
    Fails d range headers i (.error e) (.csv e)
  | underivable {cells : List String} {error : DeriveError} (selected : range.Selects i)
    (novalues : d.values i (.ofRecord headers cells) = .error error) :
    Fails d range headers i (.ok cells) error

/-- The record with the index `i` is the first one that fails. -/
def FirstFailure (d : Deriver) (range : RowRange) (headers : List String)
    (records : List (Except Csv.Error (List String))) (i : Nat) (error : DeriveError) : Prop :=
  (∃ record, records[i]? = some record ∧ d.Fails range headers i record error) ∧
    ∀ j record e, j < i → records[j]? = some record → ¬ d.Fails range headers j record e

theorem Fails.reached (h : d.Fails range headers i record error) :
    ∀ stop, range.stop = some stop → i ≤ stop := by
  cases h with
  | unreadable reached => exact reached
  | underivable selected => exact fun stop hstop => Nat.le_of_lt (selected.2.1 stop hstop)

/-! ## Steps -/

theorem writeRow_eq_error_iff : d.writeRow options headers index cells = .error error ↔
    d.values index (.ofRecord headers cells) = .error error := by
  unfold writeRow
  rw [bind_eq_error_iff]
  constructor
  · rintro (h | ⟨_, -, h⟩)
    · exact h
    · cases h
  · exact .inl

theorem transformFrom_of_fails (h : d.Fails options.range headers index record error) :
    d.transformFrom options headers index counts (record :: records) = ⟨[], .error error⟩ := by
  cases h with
  | unreadable reached => rfl
  | underivable selected novalues =>
    exact transformFrom_cons_failed selected (writeRow_eq_error_iff.mpr novalues)

theorem exists_values_of_writeRow {row : Bytes}
    (h : d.writeRow options headers index cells = .ok row) :
    ∃ values, d.values index (.ofRecord headers cells) = .ok values := by
  obtain ⟨values, hvalues, -⟩ := bind_eq_ok_iff.mp h
  exact ⟨values, hvalues⟩

/--
What a record does to a run that reaches it: it fails, it ends the run, or the run goes on behind
what is written for it.
-/
theorem transformFrom_cons (options : TransformOptions) (headers : List String) (counts : Summary)
    (record : Except Csv.Error (List String))
    (hin : ∀ stop, options.range.stop = some stop → index ≤ stop) :
    (∃ error, d.Fails options.range headers index record error) ∨
    (options.range.isPast index = true ∧ ∃ cells, record = .ok cells) ∨
    (options.range.isPast index = false ∧
      (∃ cells, record = .ok cells ∧ (options.range.Selects index →
        ∃ values, d.values index (.ofRecord headers cells) = .ok values)) ∧
      ∃ written counts', ∀ others,
        d.transformFrom options headers index counts (record :: others)
          = (d.transformFrom options headers (index + 1) counts' others).behind written) := by
  cases record with
  | error e => exact .inl ⟨_, .unreadable hin⟩
  | ok cells =>
    cases hpast : options.range.isPast index with
    | true => exact .inr (.inl ⟨rfl, cells, rfl⟩)
    | false =>
      by_cases hselects : options.range.Selects index
      · cases hrow : d.writeRow options headers index cells with
        | error error => exact .inl ⟨_, .underivable hselects (writeRow_eq_error_iff.mp hrow)⟩
        | ok written =>
          have hvalues := exists_values_of_writeRow hrow
          exact .inr (.inr ⟨rfl, ⟨cells, rfl, fun _ => hvalues⟩, written, _,
            fun _ => transformFrom_cons_selected hselects hrow⟩)
      · exact .inr (.inr ⟨rfl, ⟨cells, rfl, fun h => absurd h hselects⟩, [], _,
          fun _ => transformFrom_cons_skipped hpast hselects⟩)

/-! ## Runs -/

@[simp]
theorem behind_behind (r : Derivation) (a b : Bytes) :
    (r.behind b).behind a = r.behind (a ++ b) := by
  simp only [Derivation.behind, List.append_assoc]

/-- A run over records that does not end with them goes on with those behind them. -/
theorem transformFrom_append (after : List (Except Csv.Error (List String)))
    (hin : ∀ stop, options.range.stop = some stop → index + before.length ≤ stop)
    (h : d.transformFrom options headers index counts before = ⟨output, .ok counts'⟩) :
    d.transformFrom options headers index counts (before ++ after)
      = (d.transformFrom options headers (index + before.length) counts' after).behind output := by
  induction before generalizing index counts output with
  | nil =>
    cases h
    rfl
  | cons record before ih =>
    have hlen : index + (record :: before).length = index + 1 + before.length := by
      simp only [List.length_cons]
      omega
    rw [hlen] at hin ⊢
    have hreached : ∀ stop, options.range.stop = some stop → index ≤ stop := by
      intro stop hstop
      have hle := hin stop hstop
      omega
    rcases transformFrom_cons (d := d) options headers counts record hreached with
      ⟨error, hfails⟩ | ⟨hpast, -⟩ | ⟨-, -, written, counts'', hnext⟩
    · rw [transformFrom_of_fails hfails] at h
      cases h
    · obtain ⟨stop, hstop, hle⟩ := RowRange.isPast_iff.mp hpast
      have hlt := hin stop hstop
      omega
    · rw [hnext] at h
      rw [List.cons_append, hnext]
      cases hrun : d.transformFrom options headers (index + 1) counts'' before with
      | mk out result =>
        rw [hrun] at h
        cases h
        rw [ih hin hrun, behind_behind]

/-- A run with an error has met a record that fails. -/
theorem exists_fails_of_result (hin : ∀ stop, options.range.stop = some stop → index ≤ stop)
    (h : (d.transformFrom options headers index counts records).result = .error error) :
    ∃ i record e, records[i]? = some record ∧
      d.Fails options.range headers (index + i) record e := by
  induction records generalizing index counts with
  | nil => cases h
  | cons record records ih =>
    rcases transformFrom_cons (d := d) options headers counts record hin with
      ⟨e, hfails⟩ | ⟨hpast, cells, rfl⟩ | ⟨hpast, -, written, counts', hnext⟩
    · exact ⟨0, record, e, rfl, hfails⟩
    · rw [transformFrom_cons_past hpast] at h
      cases h
    · rw [hnext] at h
      have hin' : ∀ stop, options.range.stop = some stop → index + 1 ≤ stop :=
        RowRange.isPast_eq_false_iff.mp hpast
      obtain ⟨i, record', e, hi, hfails⟩ := ih hin' h
      refine ⟨i + 1, record', e, hi, ?_⟩
      rwa [Nat.add_right_comm] at hfails

/-- The first record that fails ends the run behind the output of the records in front of it. -/
theorem transformFrom_of_firstFailure (counts : Summary)
    (h : d.FirstFailure options.range headers records i error) :
    ∃ output counts', d.transformFrom options headers 0 counts (records.take i)
        = ⟨output, .ok counts'⟩ ∧
      d.transformFrom options headers 0 counts records = ⟨output, .error error⟩ := by
  obtain ⟨⟨record, hrecord, hfails⟩, hfirst⟩ := h
  obtain ⟨hi, rfl⟩ := List.getElem?_eq_some_iff.mp hrecord
  have hlen : (records.take i).length = i := List.length_take_of_le (Nat.le_of_lt hi)
  have hsplit : records = records.take i ++ records[i] :: records.drop (i + 1) := by
    rw [← List.drop_eq_getElem_cons hi, List.take_append_drop]
  cases hrun : d.transformFrom options headers 0 counts (records.take i) with
  | mk output result =>
    cases result with
    | error e =>
      obtain ⟨j, record, e', hj, hfails'⟩ := exists_fails_of_result
        (fun _ _ => Nat.zero_le _) (congrArg Derivation.result hrun)
      have hlt : j < i := hlen ▸ (List.getElem?_eq_some_iff.mp hj).1
      rw [Nat.zero_add] at hfails'
      rw [List.getElem?_take_of_lt hlt] at hj
      exact absurd hfails' (hfirst j record e' hlt hj)
    | ok counts' =>
      refine ⟨output, counts', rfl, ?_⟩
      have happend := transformFrom_append (records[i] :: records.drop (i + 1))
        (by rw [hlen, Nat.zero_add]; exact hfails.reached) hrun
      rw [← hsplit, hlen, Nat.zero_add, transformFrom_of_fails hfails] at happend
      rw [happend, Derivation.behind, List.append_nil]

/-! ## Tables -/

theorem transform_of_headers (h : (Csv.Table.ofBytes input).headers = .ok headers) :
    d.transform options input
      = (d.transformFrom options headers 0 ⟨0, 0⟩ (Csv.Table.ofBytes input).records).behind
          (Csv.writeRecord (options.kept headers ++ d.names)) := by
  simp only [transform, transformTable, h]

theorem exists_firstFailure
    (h : records[i]? = some record ∧ d.Fails range headers i record error) :
    ∃ j e, d.FirstFailure range headers records j e := by
  classical
  have hex : ∃ j, ∃ record e, records[j]? = some record ∧ d.Fails range headers j record e :=
    ⟨i, record, error, h⟩
  obtain ⟨record', e, hj, hfails⟩ := Nat.find_spec hex
  refine ⟨Nat.find hex, e, ⟨record', hj, hfails⟩, fun k r e' hk hr hfails' => ?_⟩
  exact Nat.find_min hex hk ⟨r, e', hr, hfails'⟩

theorem transform_result_eq_error_iff (h : (Csv.Table.ofBytes input).headers = .ok headers) :
    (d.transform options input).result = .error error ↔
      ∃ i, d.FirstFailure options.range headers (Csv.Table.ofBytes input).records i error := by
  rw [transform_of_headers h]
  constructor
  · intro herror
    obtain ⟨j, record, e, hj, hfails⟩ := exists_fails_of_result (fun _ _ => Nat.zero_le _) herror
    rw [Nat.zero_add] at hfails
    obtain ⟨i, e', hfirst⟩ := exists_firstFailure ⟨hj, hfails⟩
    obtain ⟨output, counts, -, hrun⟩ := transformFrom_of_firstFailure ⟨0, 0⟩ hfirst
    rw [hrun] at herror
    cases herror
    exact ⟨i, hfirst⟩
  · rintro ⟨i, hfirst⟩
    obtain ⟨output, counts, -, hrun⟩ := transformFrom_of_firstFailure ⟨0, 0⟩ hfirst
    rw [hrun]
    rfl

/-- Cut off in front of the record that fails, the input gives the same output and no error. -/
theorem transform_take (h : (Csv.Table.ofBytes input).headers = .ok headers)
    (hfirst : d.FirstFailure options.range headers (Csv.Table.ofBytes input).records i error) :
    ∃ row summary, (Csv.rows input)[i + 1]? = some row ∧
      Csv.Table.ofBytes (input.take row.place.byte)
        = ⟨.ok headers, (Csv.Table.ofBytes input).records.take i⟩ ∧
      d.transform options (input.take row.place.byte)
        = ⟨(d.transform options input).output, .ok summary⟩ := by
  obtain ⟨record, hrecord, -⟩ := hfirst.1
  rw [Csv.Table.getElem?_records] at hrecord
  obtain ⟨row, hrow, -⟩ := Option.map_eq_some_iff.mp hrecord
  have htake := Csv.Table.ofBytes_take hrow
  rw [h] at htake
  obtain ⟨output, counts, hfront, hrun⟩ := transformFrom_of_firstFailure ⟨0, 0⟩ hfirst
  refine ⟨row, counts, hrow, htake, ?_⟩
  have hcut : (Csv.Table.ofBytes (input.take row.place.byte)).headers = .ok headers := by
    rw [htake]
  rw [transform_of_headers hcut, transform_of_headers h, htake, hfront, hrun]
  rfl

/-- A failure in a row names the record's own index and the first column without a value. -/
theorem column_of_firstFailure {column : String} {e : EvalError}
    (h : d.FirstFailure range headers records i (.row index column e)) :
    index = i ∧ ∃ cells front c back, records[i]? = some (.ok cells) ∧
      d.columns = front ++ c :: back ∧ c.name = column ∧
      (∀ c' ∈ front, ∃ v, c'.expr.evaluate i (.ofRecord headers cells) = .ok v) ∧
      c.expr.evaluate i (.ofRecord headers cells) = .error e := by
  obtain ⟨⟨record, hrecord, hfails⟩, -⟩ := h
  cases hfails with
  | underivable selected novalues =>
    obtain ⟨front, c, back, e', hsplit, hfront, hc, herror⟩ := values_eq_error_iff.mp novalues
    cases herror
    exact ⟨rfl, _, front, c, back, hrecord, hsplit, rfl, hfront, hc⟩

end Deriver

/--
Without a header that can be read nothing is written. With one, a run ends with an error exactly if
some record fails, and with the error of the first one that does: it cannot be read, though the
range need not select it, or it is selected and some column has no value in it; then the error names
its index and the first such column. What is written is all that a run writes, successfully, over
the bytes in front of this record.
-/
theorem transform_stops_at_failure (d : Deriver) (options : TransformOptions) (input : Bytes) :
    (∀ e, (Csv.Table.ofBytes input).headers = .error e →
      d.transform options input = ⟨[], .error (.csv e)⟩) ∧
    (∀ headers, (Csv.Table.ofBytes input).headers = .ok headers → ∀ error,
      ((d.transform options input).result = .error error ↔
        ∃ i, d.FirstFailure options.range headers (Csv.Table.ofBytes input).records i error) ∧
      ∀ i, d.FirstFailure options.range headers (Csv.Table.ofBytes input).records i error →
        (∃ row summary, (Csv.rows input)[i + 1]? = some row ∧
          Csv.Table.ofBytes (input.take row.place.byte)
            = ⟨.ok headers, (Csv.Table.ofBytes input).records.take i⟩ ∧
          d.transform options (input.take row.place.byte)
            = ⟨(d.transform options input).output, .ok summary⟩) ∧
        ∀ index column e, error = .row index column e → index = i ∧
          ∃ cells front c back, (Csv.Table.ofBytes input).records[i]? = some (.ok cells) ∧
            d.columns = front ++ c :: back ∧ c.name = column ∧
            (∀ c' ∈ front, ∃ v, c'.expr.evaluate i (.ofRecord headers cells) = .ok v) ∧
            c.expr.evaluate i (.ofRecord headers cells) = .error e) := by
  refine ⟨fun e h => ?_, fun headers h error => ⟨?_, fun i hfirst => ⟨?_, ?_⟩⟩⟩
  · simp only [Deriver.transform, Deriver.transformTable, h]
  · exact Deriver.transform_result_eq_error_iff h
  · exact Deriver.transform_take h hfirst
  · rintro index column e rfl
    exact Deriver.column_of_firstFailure hfirst

/-- The record with the index 1 is not selected and still ends the run; it leaves no trace. -/
theorem transform_stops_at_failure_unselected :
    let d : Deriver := ⟨[⟨"y", "y = $b$", .column "b"⟩], []⟩
    let options : TransformOptions := ⟨.of 0 none 2, false⟩
    let input : Bytes := Text.encode "a,b\n1,2\n" ++ [0xff] ++ Text.encode "\n5,6\n"
    (d.transform options input).result = .error (.csv (.invalidText ⟨8, 3, 2⟩ 0 0)) ∧
    ∃ summary, d.transform options (input.take 8)
      = ⟨(d.transform options input).output, .ok summary⟩ := by
  intro d options input
  have hheaders : (Csv.Table.ofBytes input).headers = .ok ["a", "b"] := by decide +kernel
  have hrecords : (Csv.Table.ofBytes input).records
      = [.ok ["1", "2"], .error (.invalidText ⟨8, 3, 2⟩ 0 0), .ok ["5", "6"]] := by decide +kernel
  have hvalues : d.values 0 (.ofRecord ["a", "b"] ["1", "2"]) = .ok [2.0] := by decide +kernel
  have hfirst : d.FirstFailure options.range ["a", "b"] (Csv.Table.ofBytes input).records 1
      (.csv (.invalidText ⟨8, 3, 2⟩ 0 0)) := by
    rw [hrecords]
    refine ⟨⟨_, rfl, .unreadable fun stop hstop => nomatch hstop⟩,
      fun j record e hj hr hfails => ?_⟩
    obtain rfl : j = 0 := by omega
    cases hr
    cases hfails with
    | underivable selected novalues => cases hvalues.symm.trans novalues
  obtain ⟨herror, hfailure⟩ :=
    (transform_stops_at_failure d options input).2 _ hheaders (.csv (.invalidText ⟨8, 3, 2⟩ 0 0))
  obtain ⟨⟨row, summary, hrow, -, htake⟩, -⟩ := hfailure 1 hfirst
  have hplace : row.place.byte = 8 := by
    have hmap : (Csv.rows input)[1 + 1]?.map (·.place.byte) = some 8 := by decide +kernel
    rw [hrow] at hmap
    exact Option.some.inj hmap
  rw [hplace] at htake
  exact ⟨herror.mpr ⟨1, hfirst⟩, summary, htake⟩

end ColumnCalc
