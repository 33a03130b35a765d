import ColumnCalc.Proofs.Derive.Chaining
import ColumnCalc.Proofs.Metrics.Accepted

/-!
# Metrics of derived tables

A run that derives columns and the metrics of the same table read the same records. What the run
writes behind the cells of a record are numbers, so the record is accepted in the output exactly if
it was in the input (`accepted?_derived`). Hence deriving columns changes no metrics of the columns
that were there, and adds those of the derived ones over the same rows (`metrics_of_transform`).
-/

namespace ColumnCalc

namespace Deriver

variable {d : Deriver} {options : TransformOptions} {range : RowRange} {sources headers : List String}
  {index : Nat} {counts counts' : Summary} {records : List (Except Csv.Error (List String))}
  {cells : List (List String)} {values : Nat → List Float}

/-- Where a run succeeds, the metrics meet no record that cannot be read. -/
theorem failure_selectFrom_of_result
    (h : (d.transformFrom options headers index counts records).result = .ok counts') :
    (options.range.selectFrom index records).failure = none := by
  induction records generalizing index counts with
  | nil => rfl
  | cons record records ih =>
    cases record with
    | error e => cases h
    | ok cells =>
      by_cases hpast : options.range.isPast index = true
      · simp only [RowRange.selectFrom, hpast, if_true]
      · have hrest : (options.range.selectFrom (index + 1) records).failure = none := by
          by_cases hselects : options.range.Selects index
          · cases hrow : d.writeRow options headers index cells with
            | error e =>
              rw [transformFrom_cons_failed hselects hrow] at h
              cases h
            | ok row =>
              rw [transformFrom_cons_selected hselects hrow] at h
              exact ih h
          · rw [transformFrom_cons_skipped (Bool.eq_false_iff.mpr hpast) hselects] at h
            exact ih h
        simp only [RowRange.selectFrom, hpast, Bool.false_eq_true, if_false, hrest]

theorem failure_select_of_transform {input : Bytes} {summary : Summary}
    (hheaders : (Csv.Table.ofBytes input).headers = .ok headers)
    (h : (d.transform options input).result = .ok summary) :
    (options.range.select (Csv.Table.ofBytes input).records).failure = none := by
  rw [transform_of_headers hheaders] at h
  exact failure_selectFrom_of_result h

/-- A header of its own, or the target of a source, stands at the front of the output. -/
theorem head?_ne_mark (hd : ofSources sources = .ok d)
    (hmark : ∀ name, headers.head? = some name → name.toList.head? ≠ some '\uFEFF') :
    ∀ name, (headers ++ d.names).head? = some name → name.toList.head? ≠ some '\uFEFF' := by
  intro name hname
  cases headers with
  | cons header headers => exact hmark name hname
  | nil =>
    intro hhead
    have hpart := isIdentPart_of_ofSources hd (List.mem_of_mem_head? hname) _
      (List.mem_of_mem_head? hhead)
    exact absurd hpart (by decide +kernel)

end Deriver

namespace Metrics

variable {range : RowRange} {width : Nat} {records : List (List String)} {names : List String}
  {values : Nat → List Float}

theorem acceptedRows_all (width : Nat) (records : List (List String)) :
    acceptedRows .all width records = records.filterMap (accepted? width) := by
  have hrecords : records.zipIdx.map Prod.fst = records := List.zipIdx_map_fst ..
  conv_rhs => rw [← hrecords, List.filterMap_map]
  rw [acceptedRows, RowRange.selected_all]
  rfl

/-- The numbers of the accepted records, each with the values derived from it. -/
def derivedRows (range : RowRange) (width : Nat) (values : Nat → List Float)
    (records : List (List String)) : List (List Float × List Float) :=
  (range.selected records).filterMap fun p =>
    (accepted? width p.1).map fun own => (own, values p.2)

theorem map_fst_derivedRows :
    (derivedRows range width values records).map (·.1) = acceptedRows range width records := by
  rw [derivedRows, acceptedRows, List.map_filterMap]
  refine List.filterMap_congr fun p _ => ?_
  rw [Option.map_map]
  exact Option.map_id'

/-- The output accepts what the input does, with the derived values behind it. -/
theorem acceptedRows_derived {count : Nat}
    (hcells : ∀ p ∈ range.selected records, p.1.length ≤ width)
    (hvalues : ∀ p ∈ range.selected records, (values p.2).length = count) :
    acceptedRows .all (width + count) ((range.selected records).map fun p =>
        p.1 ++ (values p.2).map Cell.ofNumber)
      = (derivedRows range width values records).map fun p => p.1 ++ p.2 := by
  rw [acceptedRows_all, List.filterMap_map, derivedRows, List.map_filterMap]
  refine List.filterMap_congr fun p hp => ?_
  rw [Function.comp_apply, ← hvalues p hp, accepted?_append _ (hcells p hp), Option.map_map]
  rfl

theorem length_of_mem_derivedRows {count : Nat} {p : List Float × List Float}
    (hvalues : ∀ p ∈ range.selected records, (values p.2).length = count)
    (h : p ∈ derivedRows range width values records) :
    p.1.length = width ∧ p.2.length = count := by
  obtain ⟨q, hq, hpair⟩ := List.mem_filterMap.mp h
  obtain ⟨own, hown, rfl⟩ := Option.map_eq_some_iff.mp hpair
  exact ⟨length_of_accepted? hown, hvalues q hq⟩

end Metrics

/--
The metrics of what a run writes begin with those that its input has over the range of the run, for
every header and unchanged, although they are computed over all records of the output. Behind them
stand those of the derived columns. All count the same rows. This takes a run in which no selected
record has more cells than there are headers, and a header that does not begin with what is the mark
of a file at its front.
-/
theorem metrics_of_transform (sources : List String) (d : Deriver) (range : RowRange)
    (input : Bytes) (headers : List String) (summary : Summary)
    (hd : Deriver.ofSources sources = .ok d) (hcolumns : d.columns ≠ [])
    (hheaders : (Csv.Table.ofBytes input).headers = .ok headers)
    (hresult : (d.transform ⟨range, false⟩ input).result = .ok summary)
    (hmark : ∀ name, headers.head? = some name → name.toList.head? ≠ some '\uFEFF')
    (hcells : ∀ i cells, (Csv.Table.ofBytes input).records[i]? = some (.ok cells) →
      range.Selects i → cells.length ≤ headers.length) :
    ∃ own derived count, Metrics.compute range input = .ok own ∧
      Metrics.compute .all (d.transform ⟨range, false⟩ input).output = .ok (own ++ derived) ∧
      own.map (·.name) = headers ∧ derived.map (·.name) = d.names ∧
      ∀ m ∈ own ++ derived, m.count = count := by
  obtain ⟨records, back, values, hrecords, hback, hvalues, houtput⟩ := Deriver.ofBytes_transform
    (Deriver.trim_of_ofSources hd) hcolumns hheaders hresult (Deriver.head?_ne_mark hd hmark)
  have hshort : ∀ p ∈ range.selected records, p.1.length ≤ headers.length := by
    rintro ⟨cells, i⟩ hp
    have hselects := (RowRange.mem_selected_iff.mp hp).2
    refine hcells i cells ?_ hselects
    rw [hrecords]
    exact RowRange.getElem?_of_mem_selected hp back
  have hlengths : ∀ p ∈ range.selected records, (values p.2).length = d.names.length :=
    fun p hp => Deriver.length_of_values (hvalues p.2 p.1 hp)
  let rows := Metrics.derivedRows range headers.length values records
  have hown : Metrics.compute range input = .ok (Metrics.ofRows headers (rows.map (·.1))) := by
    rw [Metrics.compute_eq_ok hheaders hrecords hback
      (Deriver.failure_select_of_transform hheaders hresult), Metrics.map_fst_derivedRows]
  have hall : Metrics.compute .all (d.transform ⟨range, false⟩ input).output
      = .ok (Metrics.ofRows (headers ++ d.names) (rows.map fun p => p.1 ++ p.2)) := by
    have htable : Csv.Table.ofBytes (d.transform ⟨range, false⟩ input).output
        = ⟨.ok (headers ++ d.names), ((range.selected records).map fun p =>
            p.1 ++ (values p.2).map Cell.ofNumber).map .ok⟩ := by
      rw [houtput, List.map_map]
      rfl
    rw [Metrics.compute_of_table htable, List.length_append,
      Metrics.acceptedRows_derived hshort hlengths]
  have hrows : ∀ p ∈ rows, p.1.length = headers.length ∧ p.2.length = d.names.length :=
    fun p hp => Metrics.length_of_mem_derivedRows hlengths hp
  rw [Metrics.ofRows_append fun p hp => (hrows p hp).1] at hall
  refine ⟨_, _, rows.length, hown, hall, ?_, ?_, fun m hm => ?_⟩
  · refine Metrics.map_name_ofRows fun row hrow => ?_
    obtain ⟨p, hp, rfl⟩ := List.mem_map.mp hrow
    exact (hrows p hp).1
  · refine Metrics.map_name_ofRows fun row hrow => ?_
    obtain ⟨p, hp, rfl⟩ := List.mem_map.mp hrow
    exact (hrows p hp).2
  · rcases List.mem_append.mp hm with hm | hm
    · rw [Metrics.count_of_mem_ofRows m hm, List.length_map]
    · rw [Metrics.count_of_mem_ofRows m hm, List.length_map]

/-- Truth words, a short record, a cell that is no number, and values that are none. -/
theorem metrics_of_transform_words :
    let d : Deriver := ⟨[⟨"s", "s = 1 / ($a$ - 1)",
      .binary (.literal 1.0) '/' (.binary (.column "a") '-' (.literal 1.0))⟩], []⟩
    let range : RowRange := .of 1 none 1
    let input := Text.encode "a,b\n9,9\n1,Yes\n3\nx,4\n-1,n\n"
    Deriver.ofSources ["s = 1 / ($a$ - 1)"] = .ok d ∧
    (d.transform ⟨range, false⟩ input).result = .ok ⟨5, 4⟩ ∧
    ∃ own derived, Metrics.compute range input = .ok own ∧
      Metrics.compute .all (d.transform ⟨range, false⟩ input).output = .ok (own ++ derived) ∧
      own.map (·.name) = ["a", "b"] ∧ derived.map (·.name) = ["s"] ∧
      ∀ m ∈ own ++ derived, m.count = 2 := by
  intro d range input
  have hd : Deriver.ofSources ["s = 1 / ($a$ - 1)"] = .ok d := by decide +kernel
  have hcolumns : d.columns ≠ [] := List.cons_ne_nil _ _
  have hheaders : (Csv.Table.ofBytes input).headers = .ok ["a", "b"] := by decide +kernel
  have hrecords : (Csv.Table.ofBytes input).records
      = [["9", "9"], ["1", "Yes"], ["3"], ["x", "4"], ["-1", "n"]].map .ok := by decide +kernel
  have hresult : (d.transform ⟨range, false⟩ input).result = .ok ⟨5, 4⟩ := by decide +kernel
  have hmark : ∀ name, ["a", "b"].head? = some name → name.toList.head? ≠ some '\uFEFF' := by
    rintro name hname
    cases hname
    decide
  have hcells : ∀ i cells, (Csv.Table.ofBytes input).records[i]? = some (.ok cells) →
      range.Selects i → cells.length ≤ ["a", "b"].length := by
    intro i cells hi _
    rw [hrecords, List.getElem?_map] at hi
    obtain ⟨record, hrecord, hcells⟩ := Option.map_eq_some_iff.mp hi
    cases hcells
    have hall : ∀ r ∈ [["9", "9"], ["1", "Yes"], ["3"], ["x", "4"], ["-1", "n"]],
        r.length ≤ ["a", "b"].length := by decide
    exact hall _ (List.mem_of_getElem? hrecord)
  obtain ⟨own, derived, count, hown, hall, hnames, hnames', hcount⟩ :=
    metrics_of_transform _ d range input _ _ hd hcolumns hheaders hresult hmark hcells
  have hcounts : (Metrics.compute range input).map (·.map (·.count)) = .ok [2, 2] := by
    decide +kernel
  rw [hown] at hcounts
  have hcounts' : own.map (·.count) = [2, 2] := Except.ok.inj hcounts
  have htwo : 2 ∈ own.map (·.count) := by
    rw [hcounts']
    exact .head _
  obtain ⟨m, hm, hmcount⟩ := List.mem_map.mp htwo
  obtain rfl : 2 = count := hmcount.symm.trans (hcount m (List.mem_append_left _ hm))
  exact ⟨hd, hresult, own, derived, hown, hall, hnames, hnames', hcount⟩

end ColumnCalc
