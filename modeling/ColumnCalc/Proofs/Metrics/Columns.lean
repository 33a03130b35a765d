import Mathlib.Data.List.Induction
import ColumnCalc.Proofs.Csv.Decoding
import ColumnCalc.Proofs.Metrics.Accepted
import ColumnCalc.Proofs.Number.Order

/-!
# The column behind a metric

A record counts for every column or for none: the range has to select it, and under each header it
must have a number or a truth word. What the metrics say about a column is what its values in these
records say: how many they are, their sum from the left, and the least and the greatest of them that
is not `nan` (`ColumnMetrics.Summarizes`).

`Summarizes` is an invariant of the reading (`Summarizes.add`), so each column of a table summarizes
its values. Nothing else of the records enters the metrics.
-/

namespace ColumnCalc

/-! ## Least and greatest numbers -/

/-- The number among `values` that all numbers among them stand behind, `nan` if there is none. -/
def IsExtreme (r : Float → Float → Prop) (x : Float) (values : List Float) : Prop :=
  (x.isNaN = true ∧ ∀ v ∈ values, v.isNaN = true) ∨
    (x.isNaN = false ∧ x ∈ values ∧ ∀ v ∈ values, v.isNaN = false → r x v)

/-- A way to choose between two values: `nan` is passed over, of two numbers one by `r`. -/
structure Chooses (r : Float → Float → Prop) (f : Float → Float → Float) : Prop where
  nan_left {x v : Float} (hx : x.isNaN = true) : f x v = v
  nan_right {x v : Float} (hx : x.isNaN = false) (hv : v.isNaN = true) : f x v = x
  numbers {x v : Float} (hx : x.isNaN = false) (hv : v.isNaN = false) :
    (f x v = x ∧ r x v) ∨ (f x v = v ∧ r v x)
  refl {x : Float} (hx : x.isNaN = false) : r x x
  trans {x y z : Float} (hx : x.isNaN = false) (hy : y.isNaN = false) (hz : z.isNaN = false) :
    r x y → r y z → r x z

section
variable {r : Float → Float → Prop} {f : Float → Float → Float} {x v : Float} {values : List Float}

/-- The first number of a column, or one more `nan`. -/
theorem IsExtreme.of_nan (h : Chooses r f) (hvalues : ∀ w ∈ values, w.isNaN = true) :
    IsExtreme r v (values ++ [v]) := by
  cases hv : v.isNaN with
  | true => exact .inl ⟨hv, List.forall_mem_append.mpr ⟨hvalues, List.forall_mem_singleton.mpr hv⟩⟩
  | false =>
    have hbefore : ∀ w ∈ values, w.isNaN = false → r v w :=
      fun w hw hnumber => absurd (hnumber.symm.trans (hvalues w hw)) Bool.false_ne_true
    have hlast : ∀ w ∈ [v], w.isNaN = false → r v w :=
      List.forall_mem_singleton.mpr fun _ => h.refl hv
    exact .inr ⟨hv, by simp, List.forall_mem_append.mpr ⟨hbefore, hlast⟩⟩

/-- Choosing between the extreme of what was seen and the next value. -/
theorem IsExtreme.append (h : Chooses r f) (hx : IsExtreme r x values) :
    IsExtreme r (f x v) (values ++ [v]) := by
  rcases hx with ⟨hnan, hvalues⟩ | ⟨hnumber, hmem, hbound⟩
  · rw [h.nan_left hnan]
    exact .of_nan h hvalues
  cases hv : v.isNaN with
  | true =>
    have hlast : ∀ w ∈ [v], w.isNaN = false → r x w :=
      List.forall_mem_singleton.mpr fun hw => absurd (hw.symm.trans hv) Bool.false_ne_true
    rw [h.nan_right hnumber hv]
    exact .inr ⟨hnumber, List.mem_append_left _ hmem, List.forall_mem_append.mpr ⟨hbound, hlast⟩⟩
  | false =>
    rcases h.numbers hnumber hv with ⟨hkept, hrel⟩ | ⟨htaken, hrel⟩
    · have hlast : ∀ w ∈ [v], w.isNaN = false → r x w :=
        List.forall_mem_singleton.mpr fun _ => hrel
      rw [hkept]
      exact .inr ⟨hnumber, List.mem_append_left _ hmem, List.forall_mem_append.mpr ⟨hbound, hlast⟩⟩
    · have hbefore : ∀ w ∈ values, w.isNaN = false → r v w :=
        fun w hw hwnumber => h.trans hv hnumber hwnumber hrel (hbound w hw hwnumber)
      have hlast : ∀ w ∈ [v], w.isNaN = false → r v w :=
        List.forall_mem_singleton.mpr fun _ => h.refl hv
      rw [htaken]
      exact .inr ⟨hv, by simp, List.forall_mem_append.mpr ⟨hbefore, hlast⟩⟩

end

namespace ColumnMetrics

theorem chooses_lesser : Chooses (· ≤ ·) lesser where
  nan_left hx := if_pos hx
  nan_right hx hv := by simp only [lesser, hx, hv, Bool.false_eq_true, if_false, if_true]
  numbers {x v} hx hv := by
    simp only [lesser, hx, hv, Bool.false_eq_true, if_false]
    by_cases hlt : v < x
    · exact .inr ⟨if_pos hlt, Number.le_of_lt_of_numbers hv hx hlt⟩
    · exact .inl ⟨if_neg hlt, Number.le_of_not_lt_of_numbers hv hx hlt⟩
  refl := Number.le_self
  trans := Number.le_trans_of_numbers

theorem chooses_greater : Chooses (· ≥ ·) greater where
  nan_left hx := if_pos hx
  nan_right hx hv := by simp only [greater, hx, hv, Bool.false_eq_true, if_false, if_true]
  numbers {x v} hx hv := by
    simp only [greater, hx, hv, Bool.false_eq_true, if_false]
    by_cases hlt : x < v
    · exact .inr ⟨if_pos hlt, Number.le_of_lt_of_numbers hx hv hlt⟩
    · exact .inl ⟨if_neg hlt, Number.le_of_not_lt_of_numbers hx hv hlt⟩
  refl := Number.le_self
  trans hx hy hz hxy hyz := Number.le_trans_of_numbers hz hy hx hyz hxy

/-! ## One column -/

/-- Metrics that are those of a list of values. -/
structure Summarizes (m : ColumnMetrics) (values : List Float) : Prop where
  count : m.count = values.length
  sum : m.sum = values.foldl (· + ·) 0.0
  least : IsExtreme (· ≤ ·) m.least values
  greatest : IsExtreme (· ≥ ·) m.greatest values

theorem summarizes_start (name : String) : (start name).Summarizes [] :=
  have hnan : (0.0 / 0.0 : Float).isNaN = true := by decide
  ⟨rfl, rfl, .inl ⟨hnan, List.forall_mem_nil _⟩, .inl ⟨hnan, List.forall_mem_nil _⟩⟩

theorem Summarizes.add {m : ColumnMetrics} {values : List Float} (h : m.Summarizes values)
    (v : Float) : (m.add v).Summarizes (values ++ [v]) where
  count := by rw [List.length_append, ← h.count]; rfl
  sum := by rw [List.foldl_append, ← h.sum]; rfl
  least := h.least.append chooses_lesser
  greatest := h.greatest.append chooses_greater

theorem summarizes_foldl (name : String) (values : List Float) :
    (values.foldl add (start name)).Summarizes values := by
  induction values using List.reverseRecOn with
  | nil => exact summarizes_start name
  | append_singleton values v ih =>
    rw [List.foldl_append]
    exact ih.add v

end ColumnMetrics

namespace Cell

def IsNumberOrTruth (cell : String) : Prop :=
  (number? cell).isSome ∨ Text.lower (Text.trim cell) ∈ trueWords ++ falseWords

instance (cell : String) : Decidable (IsNumberOrTruth cell) :=
  inferInstanceAs (Decidable (_ ∨ _))

theorem isSome_numberOrTruth?_iff {cell : String} :
    (numberOrTruth? cell).isSome ↔ IsNumberOrTruth cell := by
  unfold numberOrTruth? IsNumberOrTruth
  cases number? cell with
  | some v => simp
  | none =>
    rw [List.mem_append]
    by_cases htrue : Text.lower (Text.trim cell) ∈ trueWords
    · simp [htrue]
    · by_cases hfalse : Text.lower (Text.trim cell) ∈ falseWords
      · simp [htrue, hfalse]
      · simp [htrue, hfalse]

end Cell

namespace Metrics

variable {range : RowRange} {width j : Nat} {names cells : List String} {values row : List Float}
  {rows : List (List Float)} {records : List (List String)} {ms : List ColumnMetrics}

/-! ## Accepted records -/

/-- Numbers or truth words under all of `width` headers, and anything behind them. -/
def Accepts (width : Nat) (cells : List String) : Prop :=
  width ≤ cells.length ∧ ∀ cell ∈ cells.take width, Cell.IsNumberOrTruth cell

instance (width : Nat) (cells : List String) : Decidable (Accepts width cells) :=
  inferInstanceAs (Decidable (_ ∧ _))

/-- The selected records that every column counts. -/
def acceptedRecords (range : RowRange) (width : Nat) (records : List (List String)) :
    List (List String) :=
  ((range.selected records).map Prod.fst).filter (Accepts width ·)

theorem isSome_accepted?_iff : (accepted? width cells).isSome ↔ Accepts width cells := by
  have hnumbers : ((cells.take width).mapM Cell.numberOrTruth?).isSome
      ↔ ∀ cell ∈ cells.take width, Cell.IsNumberOrTruth cell := by
    simp only [isSome_mapM_iff, Cell.isSome_numberOrTruth?_iff]
  unfold accepted? Accepts
  by_cases hshort : cells.length < width
  · simp [hshort]
  · rw [if_neg hshort, hnumbers]
    exact (and_iff_right (Nat.le_of_not_lt hshort)).symm

/-- The rows that metrics are computed over are those of the accepted records. -/
theorem map_accepted?_acceptedRecords (range : RowRange) (width : Nat)
    (records : List (List String)) :
    (acceptedRecords range width records).map (accepted? width)
      = (acceptedRows range width records).map some := by
  have hfilter : ∀ cells, decide (Accepts width cells) = (accepted? width cells).isSome :=
    fun cells => by rw [Bool.eq_iff_iff, decide_eq_true_iff, isSome_accepted?_iff]
  calc (acceptedRecords range width records).map (accepted? width)
      = (((range.selected records).map Prod.fst).filter
          (Option.isSome ∘ accepted? width)).map (accepted? width) := by
        simp only [acceptedRecords, hfilter]
        rfl
    _ = ((range.selected records).map fun p => accepted? width p.1).filter Option.isSome := by
        rw [← List.filter_map, List.map_map]
        rfl
    _ = (acceptedRows range width records).map some :=
        List.map_filterMap_some_eq_filter_map_isSome.symm

theorem acceptedRows_congr {range' : RowRange} {records' : List (List String)}
    (h : acceptedRecords range' width records' = acceptedRecords range width records) :
    acceptedRows range' width records' = acceptedRows range width records := by
  refine List.map_injective_iff.mpr (Option.some_injective _) ?_
  rw [← map_accepted?_acceptedRecords, ← map_accepted?_acceptedRecords, h]

theorem length_of_mem_acceptedRows (h : row ∈ acceptedRows range width records) :
    row.length = width := by
  obtain ⟨p, -, hp⟩ := List.mem_filterMap.mp h
  exact length_of_accepted? hp

/-- The number of a record under a header. -/
theorem getElem?_of_accepted? (h : accepted? width cells = some row) (hj : j < width) :
    cells[j]?.bind Cell.numberOrTruth? = row[j]? := by
  unfold accepted? at h
  split at h
  · cases h
  · have hnumbers : (cells.take width).map Cell.numberOrTruth? = row.map some :=
      map_eq_map_iff_forall₂.mpr (mapM_eq_some_iff.mp h)
    have hcell := congrArg (fun l => l[j]?.bind id) hnumbers
    simpa [List.getElem?_take_of_lt hj, Option.bind_map] using hcell

/-! ## All columns -/

theorem getElem?_foldl_zipWith (h : rows.map (·[j]?) = values.map some) :
    (rows.foldl (List.zipWith .add) ms)[j]? = ms[j]?.map (values.foldl .add ·) := by
  induction rows generalizing ms values with
  | nil =>
    rw [List.map_nil, List.nil_eq, List.map_eq_nil_iff] at h
    rw [h]
    exact Option.map_id'.symm
  | cons row rows ih =>
    cases values with
    | nil => cases h
    | cons v values =>
      obtain ⟨hv : row[j]? = some v, hvalues⟩ := List.cons.inj h
      rw [List.foldl_cons, ih hvalues, List.getElem?_zipWith, hv]
      cases ms[j]? with
      | none => rfl
      | some m => rfl

/-- The values of the accepted records under a header are those of the rows. -/
theorem exists_values_acceptedRecords (range : RowRange) (records : List (List String))
    (hj : j < width) :
    ∃ values : List Float,
      (acceptedRecords range width records).map (fun cells => cells[j]?.bind Cell.numberOrTruth?)
        = values.map some ∧
      (acceptedRows range width records).map (·[j]?) = values.map some := by
  have hrows := map_eq_map_iff_forall₂.mp (map_accepted?_acceptedRecords range width records)
  have hcells : (acceptedRecords range width records).map
        (fun cells => cells[j]?.bind Cell.numberOrTruth?)
      = (acceptedRows range width records).map (·[j]?) :=
    map_eq_map_iff_forall₂.mpr (hrows.imp fun _ _ h => getElem?_of_accepted? h hj)
  -- Each row has a number under the header, so the number that stands in for a missing one is
  -- never taken.
  have hvalues : (acceptedRows range width records).map (·[j]?)
      = ((acceptedRows range width records).map (·.getD j 0.0)).map some := by
    rw [List.map_map]
    refine List.map_congr_left fun row hrow => ?_
    have hlt : j < row.length := by rwa [length_of_mem_acceptedRows hrow]
    simp [hlt]
  exact ⟨_, hcells.trans hvalues, hvalues⟩

theorem summarizes_of_getElem?_ofRows {m : ColumnMetrics}
    (hvalues : rows.map (·[j]?) = values.map some) (h : (ofRows names rows)[j]? = some m) :
    m.Summarizes values := by
  rw [ofRows, getElem?_foldl_zipWith hvalues, List.getElem?_map, Option.map_map] at h
  obtain ⟨name, -, rfl⟩ := Option.map_eq_some_iff.mp h
  exact ColumnMetrics.summarizes_foldl name values

end Metrics

/--
The metrics of a table have one entry for each header, in their order. Entry `j` summarizes the
values in cell `j` of the accepted records, and all count these records. Whatever else a table holds
changes no metrics.
-/
theorem metrics_of_accepted_records (range : RowRange) (text : String) :
    ∃ (headers : List String) (records : List (List String)) (metrics : List ColumnMetrics),
      Csv.Table.ofBytes (Text.encode text) = ⟨.ok headers, records.map .ok⟩ ∧
      Metrics.compute range (Text.encode text) = .ok metrics ∧
      metrics.map (·.name) = headers ∧
      (∀ m ∈ metrics,
        m.count = (Metrics.acceptedRecords range headers.length records).length) ∧
      (∀ (j : Nat) (m : ColumnMetrics), metrics[j]? = some m → ∃ values : List Float,
        (Metrics.acceptedRecords range headers.length records).map
            (fun cells => cells[j]?.bind Cell.numberOrTruth?) = values.map some ∧
          m.Summarizes values) ∧
      ∀ (range' : RowRange) (text' : String) (records' : List (List String)),
        Csv.Table.ofBytes (Text.encode text') = ⟨.ok headers, records'.map .ok⟩ →
        Metrics.acceptedRecords range' headers.length records'
          = Metrics.acceptedRecords range headers.length records →
        Metrics.compute range' (Text.encode text') = .ok metrics := by
  obtain ⟨headers, records, htable⟩ := Csv.Table.exists_ofBytes_encode text
  have hlengths : (Metrics.acceptedRecords range headers.length records).length
      = (Metrics.acceptedRows range headers.length records).length := by
    simpa using congrArg List.length
      (Metrics.map_accepted?_acceptedRecords range headers.length records)
  have hnames : (Metrics.ofRows headers (Metrics.acceptedRows range headers.length records)).map
      (·.name) = headers :=
    Metrics.map_name_ofRows fun _ => Metrics.length_of_mem_acceptedRows
  refine ⟨headers, records, _, htable, Metrics.compute_of_table htable, hnames, ?_, ?_, ?_⟩
  · rw [hlengths]
    exact Metrics.count_of_mem_ofRows
  · intro j m hm
    have hj : j < headers.length := by
      rw [← hnames, List.length_map]
      exact (List.getElem?_eq_some_iff.mp hm).1
    obtain ⟨values, hcells, hrows⟩ := Metrics.exists_values_acceptedRecords range records hj
    exact ⟨values, hcells, Metrics.summarizes_of_getElem?_ofRows hrows hm⟩
  · intro range' text' records' htable' hsame
    rw [Metrics.compute_of_table htable', Metrics.acceptedRows_congr hsame]

/-- A short record and one with a cell that is no number are left out, `nan` is not. -/
theorem metrics_of_accepted_records_left_out :
    let text := "a,a\n1,nan\n2\n3,x\nYes,-2,x\n"
    let text' := "a,a\n7,7\n1,nan\nYes,-2,x\n"
    let metrics : List ColumnMetrics :=
      [⟨"a", 1.0, 1.0, 2.0, 2⟩, ⟨"a", -2.0, -2.0, 0.0 / 0.0, 2⟩]
    Metrics.compute .all (Text.encode text) = .ok metrics ∧
    Metrics.compute (.of 1 none 1) (Text.encode text') = .ok metrics := by
  intro text text' metrics
  have hmetrics : Metrics.compute .all (Text.encode text) = .ok metrics := by decide +kernel
  have hheaders : (Csv.Table.ofBytes (Text.encode text)).headers = .ok ["a", "a"] := by
    decide +kernel
  have hrecords : (Csv.Table.ofBytes (Text.encode text)).records
      = [["1", "nan"], ["2"], ["3", "x"], ["Yes", "-2", "x"]].map .ok := by decide +kernel
  have hheaders' : (Csv.Table.ofBytes (Text.encode text')).headers = .ok ["a", "a"] := by
    decide +kernel
  have hrecords' : (Csv.Table.ofBytes (Text.encode text')).records
      = [["7", "7"], ["1", "nan"], ["Yes", "-2", "x"]].map .ok := by decide +kernel
  obtain ⟨headers, records, _, htable, hown, -, -, -, hother⟩ :=
    metrics_of_accepted_records .all text
  rw [htable] at hheaders hrecords
  obtain rfl := Except.ok.inj hheaders
  obtain rfl := (List.map_inj_right fun _ _ => Except.ok.inj).mp hrecords
  cases hown.symm.trans hmetrics
  have htable' := congrArg₂ Csv.Table.mk hheaders' hrecords'
  exact ⟨hmetrics, hother _ _ _ htable' (by decide +kernel)⟩

end ColumnCalc
