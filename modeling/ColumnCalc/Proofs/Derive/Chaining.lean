import ColumnCalc.Proofs.Csv.Rereading
import ColumnCalc.Proofs.Derive.Layout
import ColumnCalc.Proofs.Expr.Reading
import ColumnCalc.Proofs.Number.Rereading

/-!
# Runs on the output of other runs

What a run writes with the cells of the input is a table again: its headers are those of the input
and the derived names, and each record has its values behind its own cells (`ofBytes_output`). A
further run therefore computes in a full record as if the values of the first one had been there
already (`transform_chains`).
-/

namespace ColumnCalc

/-! ## Rows with further values -/

namespace RowValues

/-- The values of a row and further ones, which count where a name has both. -/
def extend (values : RowValues) (pairs : List (String × Float)) : RowValues :=
  ⟨values.pairs ++ pairs⟩

theorem get?_extend_singleton (values : RowValues) (name : String) (v : Float) :
    (values.extend [(name, v)]).get? = Function.update values.get? name (some v) := by
  funext other
  simp only [get?, extend, List.reverse_append, List.reverse_singleton, List.singleton_append,
    List.lookup_cons, Function.update_apply]
  by_cases h : other = name
  · simp [h]
  · simp [h, beq_eq_false_iff_ne.mpr h]

/-- Each pair overrides what the row and the pairs in front of it say of its name. -/
theorem get?_extend (values : RowValues) (pairs : List (String × Float)) :
    (values.extend pairs).get? = pairs.foldl
      (fun (known : String → Option Float) p => Function.update known p.1 (some p.2))
      values.get? := by
  induction pairs generalizing values with
  | nil => simp [extend]
  | cons p pairs ih =>
    have hsplit : values.extend (p :: pairs) = (values.extend [p]).extend pairs := by
      simp [extend]
    rw [hsplit, ih, List.foldl_cons, get?_extend_singleton]

/-- A full record with numbers behind it has the values of the record, extended by the numbers. -/
theorem ofRecord_append {headers cells : List String} (h : cells.length = headers.length)
    (names : List String) (values : List Float) :
    ofRecord (headers ++ names) (cells ++ values.map Cell.ofNumber)
      = (ofRecord headers cells).extend (names.zip values) := by
  have hnumbers : (names.zip (values.map Cell.ofNumber)).map (fun p => (p.1, Cell.number p.2))
      = names.zip values := by
    rw [List.zip_map_right, List.map_map]
    refine List.map_id'' (fun p => ?_) _
    simp
  simp only [ofRecord, extend]
  rw [List.zip_append h.symm, List.map_append, hnumbers]

end RowValues

/-! ## Names of columns -/

theorem isIdentPart_of_assignment? {source name : String} {e : Expr}
    (h : assignment? source = some (name, e)) : ∀ c ∈ name.toList, isIdentPart c = true := by
  unfold assignment? at h
  split at h
  · rename_i name' value hparse
    cases h
    have hformula := formula_parse_eq_ok_iff.mp hparse
    generalize source.toList = s at hformula
    cases hformula with
    | assignment _ hname _ _ =>
      intro c hc
      rw [String.toList_ofList] at hc
      exact Grammar.isIdentPart_of_mem hname hc
  · cases h

namespace Deriver

variable {d : Deriver} {sources headers : List String} {input : Bytes} {summary : Summary}

/-- The columns of a deriver are named by the targets of its sources. -/
theorem isIdentPart_of_ofSources {name : String} (h : ofSources sources = .ok d)
    (hname : name ∈ d.names) : ∀ c ∈ name.toList, isIdentPart c = true := by
  obtain ⟨column, hcolumn, rfl⟩ := List.mem_map.mp hname
  obtain ⟨assignment, hmem, hfolded⟩ := exists_of_forall₂ (forall₂_ofSources h) hcolumn
  obtain ⟨source, -, hsource⟩ := List.mem_filterMap.mp hmem
  rw [hfolded.1]
  exact isIdentPart_of_assignment? hsource

/-- A name has no blanks. -/
theorem trim_of_ofSources (h : ofSources sources = .ok d) : d.names.map Text.trim = d.names := by
  rw [← List.forall₂_eq_eq_eq, List.forall₂_map_left_iff, List.forall₂_same]
  intro name hname
  refine Text.trim_of_not_isBlank fun c hc => ?_
  exact isBlank_of_isIdentPart (isIdentPart_of_ofSources h hname c hc)

/-- A row with values behind trimmed cells is read back as it is. -/
theorem trim_written_append {cells : List String} {values : List Float}
    (hcells : cells.map Text.trim = cells) (hvalues : values ≠ []) :
    (Csv.written (cells ++ values.map Cell.ofNumber)).map Text.trim
      = cells ++ values.map Cell.ofNumber := by
  have hnumbers : (values.map Cell.ofNumber).map Text.trim = values.map Cell.ofNumber := by
    rw [List.map_map]
    exact List.map_congr_left fun v _ => Cell.trim_ofNumber v
  rw [Csv.written_of_ne_nil (by simp [hvalues]), List.map_append, hcells, hnumbers]

/-- What a run writes is a table of the selected records with their values. -/
theorem ofBytes_transform {range : RowRange} (hnames : d.names.map Text.trim = d.names)
    (hcolumns : d.columns ≠ []) (hheaders : (Csv.Table.ofBytes input).headers = .ok headers)
    (hresult : (d.transform ⟨range, false⟩ input).result = .ok summary)
    (hmark : ∀ name, (headers ++ d.names).head? = some name → name.toList.head? ≠ some '\uFEFF') :
    ∃ (records : List (List String)) (back : List (Except Csv.Error (List String)))
      (values : Nat → List Float),
      (Csv.Table.ofBytes input).records = records.map .ok ++ back ∧
      (back = [] ∨ range.isPast records.length = true) ∧
      (∀ i cells, (cells, i) ∈ range.selected records →
        d.values i (.ofRecord headers cells) = .ok (values i)) ∧
      Csv.Table.ofBytes (d.transform ⟨range, false⟩ input).output = ⟨.ok (headers ++ d.names),
        (range.selected records).map fun p => .ok (p.1 ++ (values p.2).map Cell.ofNumber)⟩ := by
  obtain ⟨records, back, values, hrecords, hback, hvalues, houtput⟩ :=
    transform_eq_ok hheaders hresult
  refine ⟨records, back, values, hrecords, hback, hvalues, ?_⟩
  have hne : d.names ≠ [] := by simpa [names] using hcolumns
  have hheader : (Csv.written (headers ++ d.names)).map Text.trim = headers ++ d.names := by
    rw [Csv.written_of_ne_nil (by simp [hne]), List.map_append, hnames,
      Csv.Table.trim_of_headers hheaders]
  have hrow : ∀ p ∈ range.selected records,
      (Csv.written (derivedRow ⟨range, false⟩ values p)).map Text.trim
        = p.1 ++ (values p.2).map Cell.ofNumber := by
    rintro ⟨cells, i⟩ hmem
    have hread : .ok cells ∈ (Csv.Table.ofBytes input).records := by
      rw [hrecords]
      have hcells := List.mem_of_getElem? (RowRange.mem_selected_iff.mp hmem).1
      exact List.mem_append_left _ (List.mem_map_of_mem hcells)
    refine trim_written_append (Csv.Table.trim_of_mem_records hread) fun hnil => hne ?_
    rw [← List.length_eq_zero_iff, ← length_of_values (hvalues i cells hmem), hnil]
    rfl
  rw [houtput]
  change Csv.Table.ofBytes (Csv.writeRecords ((headers ++ d.names) :: _)) = _
  rw [Csv.Table.ofBytes_writeRecords (Csv.not_byteOrderMark_writeRecords hmark), hheader,
    List.map_map]
  exact congrArg _ (List.map_congr_left fun p hp => congrArg _ (hrow p hp))

/-- All records are selected by a run over all of them. -/
theorem ofBytes_output (hnames : d.names.map Text.trim = d.names) (hcolumns : d.columns ≠ [])
    (hheaders : (Csv.Table.ofBytes input).headers = .ok headers)
    (hresult : (d.transform ⟨.all, false⟩ input).result = .ok summary)
    (hmark : ∀ name, (headers ++ d.names).head? = some name → name.toList.head? ≠ some '\uFEFF') :
    ∃ (records : List (List String)) (values : Nat → List Float),
      (Csv.Table.ofBytes input).records = records.map .ok ∧
      (∀ i cells, records[i]? = some cells →
        d.values i (.ofRecord headers cells) = .ok (values i)) ∧
      Csv.Table.ofBytes (d.transform ⟨.all, false⟩ input).output = ⟨.ok (headers ++ d.names),
        records.zipIdx.map fun p => .ok (p.1 ++ (values p.2).map Cell.ofNumber)⟩ := by
  obtain ⟨records, back, values, hrecords, hback, hvalues, houtput⟩ :=
    ofBytes_transform hnames hcolumns hheaders hresult hmark
  have hnil : back = [] := hback.resolve_right nofun
  rw [hnil, List.append_nil] at hrecords
  rw [RowRange.selected_all] at hvalues houtput
  exact ⟨records, values, hrecords,
    fun i cells h => hvalues i cells (List.mk_mem_zipIdx_iff_getElem?.mpr h), houtput⟩

end Deriver

/--
A run over all records can be followed by another one on its output. Its headers are the trimmed
headers of the input and the derived names, there are as many records, and in a full record each
name has its derived value, whatever the record has under that name; an expression is computed there
as in the record of the input with those values behind its own.
-/
theorem transform_chains (sources : List String) (d : Deriver) (input : Bytes)
    (headers : List String) (summary : Summary)
    (hd : Deriver.ofSources sources = .ok d) (hcolumns : d.columns ≠ [])
    (hheaders : (Csv.Table.ofBytes input).headers = .ok headers)
    (hresult : (d.transform ⟨.all, false⟩ input).result = .ok summary)
    (hmark : ∀ name, (headers ++ d.names).head? = some name → name.toList.head? ≠ some '\uFEFF') :
    let first := Csv.Table.ofBytes input
    let second := Csv.Table.ofBytes (d.transform ⟨.all, false⟩ input).output
    second.headers = .ok (headers ++ d.names) ∧
    second.records.length = first.records.length ∧
    ∀ i, i < first.records.length → ∃ cells values cells',
      first.records[i]? = some (.ok cells) ∧
      d.values i (.ofRecord headers cells) = .ok values ∧
      second.records[i]? = some (.ok cells') ∧
      (cells.length = headers.length →
        (RowValues.ofRecord (headers ++ d.names) cells').get? = (d.names.zip values).foldl
          (fun (known : String → Option Float) p => Function.update known p.1 (some p.2))
          (RowValues.ofRecord headers cells).get? ∧
        ∀ (e : Expr) (index : Nat), e.evaluate index (.ofRecord (headers ++ d.names) cells')
          = e.evaluate index ((RowValues.ofRecord headers cells).extend (d.names.zip values))) := by
  intro first second
  obtain ⟨records, values, hrecords, hvalues, houtput⟩ := Deriver.ofBytes_output
    (Deriver.trim_of_ofSources hd) hcolumns hheaders hresult hmark
  have hsecond : second = _ := houtput
  have hfirst : first.records = records.map .ok := hrecords
  rw [hsecond, hfirst]
  refine ⟨rfl, by simp, fun i hi => ?_⟩
  rw [List.length_map] at hi
  have hcells : records[i]? = some records[i] := List.getElem?_eq_getElem hi
  refine ⟨records[i], values i, records[i] ++ (values i).map Cell.ofNumber, ?_,
    hvalues i _ hcells, ?_, fun hfull => ?_⟩
  · rw [List.getElem?_map, hcells, Option.map_some]
  · rw [List.getElem?_map, List.getElem?_zipIdx, hcells]
    simp
  · rw [RowValues.ofRecord_append hfull]
    exact ⟨RowValues.get?_extend .., fun _ _ => rfl⟩

theorem transform_chains_overriding :
    let d : Deriver :=
      ⟨[⟨"a", "a = $a$ - inf", .binary (.column "a") '-' (.literal (1.0 / 0.0))⟩], []⟩
    let input := Text.encode "a,\"b,c\"\n\n0,7\nx,8\n5\n"
    let first := Csv.Table.ofBytes input
    let second := Csv.Table.ofBytes (d.transform ⟨.all, false⟩ input).output
    Deriver.ofSources ["a = $a$ - inf"] = .ok d ∧ d.columns ≠ [] ∧
    first.headers = .ok ["a", "b,c"] ∧
    (d.transform ⟨.all, false⟩ input).result = .ok ⟨3, 3⟩ ∧
    (∀ name, (["a", "b,c"] ++ d.names).head? = some name →
      name.toList.head? ≠ some '\uFEFF') ∧
    second.headers = .ok ["a", "b,c", "a"] ∧ second.records.length = 3 ∧
    ∃ cells, second.records[0]? = some (.ok cells) ∧
      (RowValues.ofRecord ["a", "b,c", "a"] cells).get? "a" = some (-1.0 / 0.0) := by
  intro d input first second
  have hd : Deriver.ofSources ["a = $a$ - inf"] = .ok d := by decide +kernel
  have hcolumns : d.columns ≠ [] := List.cons_ne_nil _ _
  have hheaders : first.headers = .ok ["a", "b,c"] := by decide +kernel
  have hresult : (d.transform ⟨.all, false⟩ input).result = .ok ⟨3, 3⟩ := by decide +kernel
  have hmark : ∀ name, (["a", "b,c"] ++ d.names).head? = some name →
      name.toList.head? ≠ some '\uFEFF' := by
    rintro name hname
    cases hname
    decide
  have hrecords : first.records = [["0", "7"], ["x", "8"], ["5"]].map .ok := by decide +kernel
  obtain ⟨hheaders', hlength, hrows⟩ :=
    transform_chains _ d input _ _ hd hcolumns hheaders hresult hmark
  refine ⟨hd, hcolumns, hheaders, hresult, hmark, hheaders', ?_, ?_⟩
  · exact hlength.trans (congrArg _ hrecords)
  · obtain ⟨cells, values, cells', hcells, hvalues, hcells', hfull⟩ :=
      hrows 0 (by rw [hrecords]; decide)
    rw [hrecords] at hcells
    cases hcells
    have hvalue : d.values 0 (.ofRecord ["a", "b,c"] ["0", "7"]) = .ok [-1.0 / 0.0] := by
      decide +kernel
    obtain rfl : [-1.0 / 0.0] = values := Except.ok.inj (hvalue.symm.trans hvalues)
    have hget := congrFun (hfull rfl).1 "a"
    exact ⟨cells', hcells', hget.trans (by simp [d, Deriver.names])⟩

end ColumnCalc
