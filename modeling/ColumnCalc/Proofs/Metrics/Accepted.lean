import ColumnCalc.Metrics.Basic
import ColumnCalc.Proofs.Derive.Batch
import ColumnCalc.Proofs.Number.Rereading
import ColumnCalc.Proofs.Results

/-!
# The rows that metrics are computed over

The metrics of a table come from the rows of numbers that its selected records hold
(`Metrics.compute_eq_ok`). Every column counts all of these rows, and columns that stand side by
side do not influence each other (`Metrics.ofRows_append`).
-/

namespace ColumnCalc

/-! ## Selected records -/

namespace RowRange

variable {ε α : Type} {range : RowRange} {first : Nat} {records : List α} {back : List (Except ε α)}

theorem rows_selectFrom_of_isPast (h : range.isPast first = true) :
    (range.selectFrom first back).rows = [] := by
  cases back with
  | nil => rfl
  | cons record back =>
    cases record with
    | error e => rfl
    | ok r => simp only [selectFrom, h, if_true]

/-- What is read of a table up to the end of the range are the selected records of that part. -/
theorem rows_selectFrom (hback : back = [] ∨ range.isPast (first + records.length) = true) :
    (range.selectFrom first (records.map .ok ++ back)).rows
      = (range.selectedFrom first records).map Prod.swap := by
  induction records generalizing first with
  | nil =>
    rcases hback with rfl | hpast
    · rfl
    · exact rows_selectFrom_of_isPast hpast
  | cons record records ih =>
    by_cases hpast : range.isPast first = true
    · rw [rows_selectFrom_of_isPast hpast, selectedFrom_of_isPast hpast]
      rfl
    · have hlen : first + (record :: records).length = first + 1 + records.length := by
        simp only [List.length_cons]
        omega
      have hrest : (range.selectFrom (first + 1) (records.map .ok ++ back)).rows = _ :=
        ih (hlen ▸ hback)
      rw [List.map_cons, List.cons_append]
      by_cases hselects : range.Selects first
      · rw [selectedFrom_cons_of_selects hselects, List.map_cons, ← hrest]
        simp only [selectFrom, hpast, contains_iff_selects.mpr hselects, Bool.false_eq_true,
          if_false, if_true, Prod.swap_prod_mk]
      · rw [selectedFrom_cons_of_not_selects hselects, ← hrest]
        rw [← contains_iff_selects] at hselects
        simp only [selectFrom, hpast, hselects, Bool.false_eq_true, if_false]

/-- Records that can be read do not end the reading before its time. -/
theorem failure_selectFrom (range : RowRange) (first : Nat) (records : List α) :
    (range.selectFrom first (records.map (Except.ok (ε := ε)))).failure = none := by
  induction records generalizing first with
  | nil => rfl
  | cons record records ih =>
    rw [List.map_cons, selectFrom]
    split
    · rfl
    · exact ih (first + 1)

/-- The selected records stand in front of whatever is not read. -/
theorem getElem?_of_mem_selected {record : α} {i : Nat} (h : (record, i) ∈ range.selected records)
    (back : List (Except ε α)) : (records.map .ok ++ back)[i]? = some (.ok record) := by
  have hrecord := (mem_selected_iff.mp h).1
  have hlt : i < (records.map (Except.ok (ε := ε))).length := by
    rw [List.length_map]
    exact (List.getElem?_eq_some_iff.mp hrecord).1
  rw [List.getElem?_append_left hlt, List.getElem?_map, hrecord]
  rfl

end RowRange

namespace Metrics

variable {range : RowRange} {input : Bytes} {headers names names' cells : List String} {width : Nat}
  {records : List (List String)} {back : List (Except Csv.Error (List String))}
  {rows : List (List Float)} {values : List Float} {ms : List ColumnMetrics}

/-- The metrics of columns that have the numbers of the rows. -/
def ofRows (names : List String) (rows : List (List Float)) : List ColumnMetrics :=
  rows.foldl (List.zipWith .add) (names.map .start)

/-- The numbers of the selected records that have one under each of `width` headers. -/
def acceptedRows (range : RowRange) (width : Nat) (records : List (List String)) :
    List (List Float) :=
  (range.selected records).filterMap fun p => accepted? width p.1

theorem compute_eq_ok (hheaders : (Csv.Table.ofBytes input).headers = .ok headers)
    (hrecords : (Csv.Table.ofBytes input).records = records.map .ok ++ back)
    (hback : back = [] ∨ range.isPast records.length = true)
    (hfailure : (range.select (Csv.Table.ofBytes input).records).failure = none) :
    compute range input = .ok (ofRows headers (acceptedRows range headers.length records)) := by
  have hrows : (range.select (Csv.Table.ofBytes input).records).rows
      = (range.selected records).map Prod.swap := by
    rw [hrecords]
    exact RowRange.rows_selectFrom (by rwa [Nat.zero_add])
  rw [compute, bind_eq_ok_iff]
  refine ⟨headers, hheaders, ?_⟩
  simp only [hfailure, hrows, List.filterMap_map]
  rfl

/-- The metrics of a table whose records can all be read. -/
theorem compute_of_table
    (htable : Csv.Table.ofBytes input = ⟨.ok headers, records.map .ok⟩) :
    compute range input = .ok (ofRows headers (acceptedRows range headers.length records)) := by
  have hrecords : (Csv.Table.ofBytes input).records = records.map .ok ++ [] := by
    rw [htable, List.append_nil]
  refine compute_eq_ok (by rw [htable]) hrecords (.inl rfl) ?_
  rw [htable]
  exact RowRange.failure_selectFrom ..

/-! ## Rows -/

theorem length_of_accepted? (h : accepted? width cells = some values) : values.length = width := by
  unfold accepted? at h
  split at h
  · cases h
  · rw [← (mapM_eq_some_iff.mp h).length_eq, List.length_take]
    omega

/-- Numbers behind a record do not keep it from being accepted, and make no short record long. -/
theorem accepted?_append (values : List Float) (h : cells.length ≤ width) :
    accepted? (width + values.length) (cells ++ values.map Cell.ofNumber)
      = (accepted? width cells).map (· ++ values) := by
  unfold accepted?
  rw [List.length_append, List.length_map]
  by_cases hshort : cells.length < width
  · rw [if_pos hshort, if_pos (by omega)]
    rfl
  · have hnumbers : (values.map Cell.ofNumber).mapM Cell.numberOrTruth? = some values := by
      rw [mapM_eq_some_iff, List.forall₂_map_left_iff, List.forall₂_same]
      exact fun v _ => Cell.numberOrTruth?_ofNumber v
    have hwhole : (cells ++ values.map Cell.ofNumber).take (width + values.length)
        = cells ++ values.map Cell.ofNumber :=
      List.take_of_length_le (by simpa using h)
    rw [if_neg hshort, if_neg (by omega), hwhole, List.take_of_length_le h, List.mapM_append,
      hnumbers]
    cases cells.mapM Cell.numberOrTruth? with
    | none => rfl
    | some own => rfl

/-! ## Columns -/

theorem zipWith_add (ms : List ColumnMetrics) (values : List Float) :
    List.zipWith .add ms values = (ms.zip values).map fun p => p.1.add p.2 :=
  List.map_uncurry_zip_eq_zipWith.symm

theorem length_zipWith_add (h : values.length = ms.length) :
    (List.zipWith ColumnMetrics.add ms values).length = ms.length := by
  rw [List.length_zipWith, h, Nat.min_self]

theorem map_name_zipWith (h : values.length = ms.length) :
    (List.zipWith ColumnMetrics.add ms values).map (·.name) = ms.map (·.name) := by
  have hfst : (ms.zip values).map Prod.fst = ms := List.map_fst_zip (Nat.le_of_eq h.symm)
  conv_rhs => rw [← hfst]
  rw [zipWith_add, List.map_map, List.map_map]
  rfl

theorem map_name_foldl (h : ∀ row ∈ rows, row.length = ms.length) :
    (rows.foldl (List.zipWith .add) ms).map (·.name) = ms.map (·.name) := by
  induction rows generalizing ms with
  | nil => rfl
  | cons row rows ih =>
    obtain ⟨hrow, hrows⟩ := List.forall_mem_cons.mp h
    rw [List.foldl_cons, ih fun r hr => (hrows r hr).trans (length_zipWith_add hrow).symm,
      map_name_zipWith hrow]

/-- Every row adds one to the count of each column. -/
theorem count_of_mem_foldl {n : Nat} (h : ∀ m ∈ ms, m.count = n) :
    ∀ m ∈ rows.foldl (List.zipWith .add) ms, m.count = n + rows.length := by
  induction rows generalizing ms n with
  | nil => exact h
  | cons row rows ih =>
    have hnext : ∀ m ∈ List.zipWith ColumnMetrics.add ms row, m.count = n + 1 := by
      intro m hm
      rw [zipWith_add] at hm
      obtain ⟨⟨m', v⟩, hmem, rfl⟩ := List.mem_map.mp hm
      exact congrArg (· + 1) (h m' (List.of_mem_zip hmem).1)
    rw [List.foldl_cons, List.length_cons, Nat.add_comm rows.length, ← Nat.add_assoc]
    exact ih hnext

/-- Columns side by side are computed apart. -/
theorem foldl_append {as bs : List ColumnMetrics} {pairs : List (List Float × List Float)}
    (h : ∀ p ∈ pairs, p.1.length = as.length) :
    (pairs.map fun p => p.1 ++ p.2).foldl (List.zipWith .add) (as ++ bs)
      = (pairs.map (·.1)).foldl (List.zipWith .add) as
        ++ (pairs.map (·.2)).foldl (List.zipWith .add) bs := by
  induction pairs generalizing as bs with
  | nil => rfl
  | cons p pairs ih =>
    obtain ⟨hp, hpairs⟩ := List.forall_mem_cons.mp h
    simp only [List.map_cons, List.foldl_cons]
    rw [List.zipWith_append hp.symm,
      ih fun q hq => (hpairs q hq).trans (length_zipWith_add hp).symm]

theorem map_name_ofRows (h : ∀ row ∈ rows, row.length = names.length) :
    (ofRows names rows).map (·.name) = names := by
  rw [ofRows, map_name_foldl (by simpa using h), List.map_map]
  exact List.map_id' names

theorem count_of_mem_ofRows : ∀ m ∈ ofRows names rows, m.count = rows.length := by
  have hstart : ∀ m ∈ names.map ColumnMetrics.start, m.count = 0 := by
    simp [ColumnMetrics.start]
  simpa [ofRows] using count_of_mem_foldl hstart

theorem ofRows_append {pairs : List (List Float × List Float)}
    (h : ∀ p ∈ pairs, p.1.length = names.length) :
    ofRows (names ++ names') (pairs.map fun p => p.1 ++ p.2)
      = ofRows names (pairs.map (·.1)) ++ ofRows names' (pairs.map (·.2)) := by
  rw [ofRows, List.map_append, foldl_append (by simpa using h)]
  rfl

end Metrics

end ColumnCalc
