import ColumnCalc.Proofs.Derive.Failure

/-!
# Where derived values stand

A run that succeeds has written the header and, behind the cells of each selected record, its values
(`Deriver.transform_eq_ok`). A value stands under the name of its column exactly if the record has
as many cells as there are headers; nothing is filled in or cut off where it has not
(`transform_aligned_iff`).
-/

namespace ColumnCalc

namespace Deriver

variable {d : Deriver} {options : TransformOptions} {headers : List String} {index : Nat}
  {counts counts' : Summary} {records : List (Except Csv.Error (List String))} {input : Bytes}
  {summary : Summary}

/-! ## Runs that succeed -/

/--
A run that succeeds has read a front part of the records, as far as the range goes, and found values
in the selected ones.
-/
theorem exists_cells_of_result (hin : ∀ stop, options.range.stop = some stop → index ≤ stop)
    (h : (d.transformFrom options headers index counts records).result = .ok counts') :
    ∃ cells back, records = cells.map .ok ++ back ∧
      (∀ stop, options.range.stop = some stop → index + cells.length ≤ stop) ∧
      (back = [] ∨ options.range.isPast (index + cells.length) = true) ∧
      ∀ i r, (r, i) ∈ options.range.selectedFrom index cells →
        ∃ values, d.values i (.ofRecord headers r) = .ok values := by
  induction records generalizing index counts with
  | nil => exact ⟨[], [], rfl, hin, .inl rfl, fun _ _ hmem => nomatch hmem⟩
  | cons record records ih =>
    rcases transformFrom_cons (d := d) options headers counts record hin with
      ⟨e, hfails⟩ | ⟨hpast, -⟩ | ⟨hpast, ⟨first, rfl, hfirst⟩, written, counts'', hnext⟩
    · rw [transformFrom_of_fails hfails] at h
      cases h
    · exact ⟨[], record :: records, rfl, hin, .inr hpast, fun _ _ hmem => nomatch hmem⟩
    · rw [hnext] at h
      have hin' : ∀ stop, options.range.stop = some stop → index + 1 ≤ stop :=
        RowRange.isPast_eq_false_iff.mp hpast
      obtain ⟨cells, back, rfl, hstop, hback, hvalues⟩ := ih hin' h
      have hlen : index + (first :: cells).length = index + 1 + cells.length := by
        simp only [List.length_cons]
        omega
      refine ⟨first :: cells, back, rfl, hlen ▸ hstop, hlen ▸ hback, fun i r hmem => ?_⟩
      by_cases hselects : options.range.Selects index
      · rw [RowRange.selectedFrom_cons_of_selects hselects] at hmem
        rcases List.mem_cons.mp hmem with hhead | htail
        · cases hhead
          exact hfirst hselects
        · exact hvalues i r htail
      · rw [RowRange.selectedFrom_cons_of_not_selects hselects] at hmem
        exact hvalues i r hmem

theorem transformFrom_output_of_isPast (h : options.range.isPast index = true) :
    (d.transformFrom options headers index counts records).output = [] := by
  cases records with
  | nil => rfl
  | cons record records =>
    cases record with
    | error e => rfl
    | ok cells => rw [transformFrom_cons_past h]

theorem transform_eq_ok (hheaders : (Csv.Table.ofBytes input).headers = .ok headers)
    (h : (d.transform options input).result = .ok summary) :
    ∃ cells back values, (Csv.Table.ofBytes input).records = cells.map .ok ++ back ∧
      (back = [] ∨ options.range.isPast cells.length = true) ∧
      (∀ i r, (r, i) ∈ options.range.selected cells →
        d.values i (.ofRecord headers r) = .ok (values i)) ∧
      (d.transform options input).output = Csv.writeRecords ((options.kept headers ++ d.names)
        :: (options.range.selected cells).map (derivedRow options values)) := by
  rw [transform_of_headers hheaders] at h ⊢
  obtain ⟨cells, back, hrecords, hstop, hback, hvalues⟩ :=
    exists_cells_of_result (fun _ _ => Nat.zero_le _) h
  rw [Nat.zero_add] at hstop hback
  have hrow : ∀ i, ∃ values, ∀ r, (r, i) ∈ options.range.selected cells →
      d.values i (.ofRecord headers r) = .ok values := by
    intro i
    by_cases hex : ∃ r, (r, i) ∈ options.range.selected cells
    · obtain ⟨r, hmem⟩ := hex
      obtain ⟨values, hr⟩ := hvalues i r hmem
      refine ⟨values, fun r' hmem' => ?_⟩
      have hsame := (RowRange.mem_selected_iff.mp hmem).1.symm.trans
        (RowRange.mem_selected_iff.mp hmem').1
      rw [← Option.some.inj hsame, hr]
    · exact ⟨[], fun r hmem => absurd ⟨r, hmem⟩ hex⟩
  choose values hvalues using hrow
  refine ⟨cells, back, values, hrecords, hback, hvalues, ?_⟩
  have hrun : d.transformFrom options headers 0 ⟨0, 0⟩ (cells.map .ok) = _ :=
    transformFrom_of_values (fun _ _ => Nat.zero_le _) hvalues
  have hlen : 0 + (cells.map (Except.ok (ε := Csv.Error))).length = cells.length := by
    rw [List.length_map, Nat.zero_add]
  rw [hrecords, transformFrom_append back (by rwa [hlen]) hrun, hlen]
  have hend {counts} : (d.transformFrom options headers cells.length counts back).output = [] := by
    rcases hback with rfl | hpast
    · rfl
    · exact transformFrom_output_of_isPast hpast
  simp only [Derivation.behind, hend, List.append_nil]
  rfl

/-! ## Rows of a table -/

theorem length_of_values {i : Nat} {row : RowValues} {values : List Float}
    (h : d.values i row = .ok values) : values.length = d.names.length := by
  rw [names, List.length_map]
  exact (mapM_eq_ok_iff.mp h).length_eq.symm

end Deriver

/--
The written row of a record fits under the header: it has a cell under every name, those under the
input's headers are the record's own, and each value stands under the name of its column.
-/
structure Aligned (headers names cells : List String) (values : List Float) : Prop where
  length : (cells ++ values.map Cell.ofNumber).length = (headers ++ names).length
  own : (cells ++ values.map Cell.ofNumber).take headers.length = cells
  derived : ∀ k v, values[k]? = some v →
    (cells ++ values.map Cell.ofNumber)[headers.length + k]? = some (Cell.ofNumber v)

theorem aligned_iff {headers names cells : List String} {values : List Float}
    (h : values.length = names.length) :
    Aligned headers names cells values ↔ cells.length = headers.length := by
  constructor
  · intro haligned
    have hlen := haligned.length
    simp only [List.length_append, List.length_map] at hlen
    omega
  · intro hcells
    refine ⟨?_, ?_, fun k v hk => ?_⟩
    · simp only [List.length_append, List.length_map, hcells, h]
    · rw [← hcells, List.take_left]
    · rw [← hcells, List.getElem?_append_right (Nat.le_add_right ..), Nat.add_sub_cancel_left,
        List.getElem?_map, hk]
      rfl

/--
What a run with the cells of the input writes, if it succeeds: the header, and of each selected
record its own cells and then its values. The values stand under the names of their columns exactly
if the record has as many cells as there are headers.
-/
theorem transform_aligned_iff (d : Deriver) (range : RowRange) (input : Bytes)
    (headers : List String) (summary : Summary)
    (hheaders : (Csv.Table.ofBytes input).headers = .ok headers)
    (hresult : (d.transform ⟨range, false⟩ input).result = .ok summary) :
    ∃ rows : List (Nat × List String × List Float),
      (d.transform ⟨range, false⟩ input).output = Csv.writeRecords ((headers ++ d.names)
        :: rows.map fun row => row.2.1 ++ row.2.2.map Cell.ofNumber) ∧
      (∀ i, i < (Csv.Table.ofBytes input).records.length → range.Selects i →
        ∃ cells values, (i, cells, values) ∈ rows) ∧
      ∀ i cells values, (i, cells, values) ∈ rows →
        (Csv.Table.ofBytes input).records[i]? = some (.ok cells) ∧ range.Selects i ∧
        d.values i (.ofRecord headers cells) = .ok values ∧
        (Aligned headers d.names cells values ↔ cells.length = headers.length) := by
  obtain ⟨records, back, values, hrecords, hback, hvalues, houtput⟩ :=
    Deriver.transform_eq_ok hheaders hresult
  refine ⟨(range.selected records).map fun p => (p.2, p.1, values p.2), ?_, fun i hi hselects => ?_,
    ?_⟩
  · rw [houtput, List.map_map]
    rfl
  · have hread : i < records.length := by
      rcases hback with rfl | hpast
      · simpa [hrecords] using hi
      · exact Nat.lt_of_not_le fun hle => RowRange.not_selects_of_isPast hpast hle hselects
    have hmem : (records[i], i) ∈ range.selected records :=
      RowRange.mem_selected_iff.mpr ⟨List.getElem?_eq_getElem hread, hselects⟩
    exact ⟨records[i], values i, List.mem_map.mpr ⟨_, hmem, rfl⟩⟩
  · intro i cells values' hrow
    obtain ⟨⟨r, j⟩, hmem, heq⟩ := List.mem_map.mp hrow
    obtain ⟨rfl, rfl, rfl⟩ : j = i ∧ r = cells ∧ values j = values' := by simpa using heq
    obtain ⟨hcells, hselects⟩ := RowRange.mem_selected_iff.mp hmem
    refine ⟨?_, hselects, hvalues j r hmem, ?_⟩
    · have hlt : j < (records.map (Except.ok (ε := Csv.Error))).length := by
        rw [List.length_map]
        exact (List.getElem?_eq_some_iff.mp hcells).1
      rw [hrecords, List.getElem?_append_left hlt, List.getElem?_map, hcells]
      rfl
    · exact aligned_iff (Deriver.length_of_values (hvalues j r hmem))

theorem transform_aligned_iff_full_record :
    let d : Deriver := ⟨[⟨"x", "x = $b$", .column "b"⟩], []⟩
    let input := Text.encode "a,b\n1,2\n"
    (Csv.Table.ofBytes input).headers = .ok ["a", "b"] ∧
    (d.transform ⟨.all, false⟩ input).result = .ok ⟨1, 1⟩ ∧
    ∃ rows : List (Nat × List String × List Float),
      (d.transform ⟨.all, false⟩ input).output = Csv.writeRecords ((["a", "b"] ++ d.names)
        :: rows.map fun row => row.2.1 ++ row.2.2.map Cell.ofNumber) ∧
      (∀ i, i < (Csv.Table.ofBytes input).records.length → RowRange.all.Selects i →
        ∃ cells values, (i, cells, values) ∈ rows) ∧
      ∀ i cells values, (i, cells, values) ∈ rows →
        (Csv.Table.ofBytes input).records[i]? = some (.ok cells) ∧ RowRange.all.Selects i ∧
        d.values i (.ofRecord ["a", "b"] cells) = .ok values ∧
        (Aligned ["a", "b"] d.names cells values ↔ cells.length = 2) := by
  intro d input
  have hheaders : (Csv.Table.ofBytes input).headers = .ok ["a", "b"] := by decide +kernel
  have hresult : (d.transform ⟨.all, false⟩ input).result = .ok ⟨1, 1⟩ := by decide +kernel
  exact ⟨hheaders, hresult, transform_aligned_iff d .all input _ _ hheaders hresult⟩

/-- In a short record the value stands under a header, in a long one behind the names. -/
theorem transform_misaligned_ragged :
    let d : Deriver := ⟨[⟨"x", "x = 10", .literal 10.0⟩], []⟩
    d.transform ⟨.all, false⟩ (Text.encode "a,b\n1\n1,2,3\n")
      = ⟨Text.encode "a,b,x\n1,10\n1,2,3,10\n", .ok ⟨2, 2⟩⟩ ∧
    Csv.writeRecords [["a", "b", "x"], ["1", "10"], ["1", "2", "3", "10"]]
      = Text.encode "a,b,x\n1,10\n1,2,3,10\n" ∧
    ¬ Aligned ["a", "b"] d.names ["1"] [10.0] ∧
    ¬ Aligned ["a", "b"] d.names ["1", "2", "3"] [10.0] := by
  refine ⟨?_, by decide +kernel, fun h => ?_, fun h => ?_⟩
  · rw [Derivation.mk.injEq]
    constructor
    · decide +kernel
    · decide +kernel
  · exact absurd h.length (by decide +kernel)
  · exact absurd h.length (by decide +kernel)

end ColumnCalc
