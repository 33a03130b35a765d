import ColumnCalc.Derive.Transform
import Mathlib.Tactic.IntervalCases

/-!
# Deriving a whole table at once

`Deriver.transform` goes through the records one by one, counts them and stops behind the range. If
every selected record has values, that comes to a filter over all records (`transform_of_values`).
What makes stopping right is that no record behind one that lies past the range is selected
(`not_selects_of_isPast`).
-/

namespace ColumnCalc

namespace RowRange

variable {range : RowRange} {α : Type} {i j first : Nat} {record : α} {records : List α}

/-! ## Selected records -/

/-- The row lies in the range and its index is a multiple of the divider. -/
def Selects (range : RowRange) (i : Nat) : Prop :=
  range.start ≤ i ∧ (∀ stop, range.stop = some stop → i < stop) ∧ range.divider ∣ i

theorem contains_iff_selects : range.contains i = true ↔ range.Selects i := by
  rw [contains_iff]
  constructor
  · rintro ⟨hdivider, hstart, hstop⟩
    exact ⟨hstart, hstop, hdivider⟩
  · rintro ⟨hstart, hstop, hdivider⟩
    exact ⟨hdivider, hstart, hstop⟩

instance (range : RowRange) (i : Nat) : Decidable (range.Selects i) :=
  decidable_of_iff _ contains_iff_selects

theorem isPast_iff : range.isPast i = true ↔ ∃ stop, range.stop = some stop ∧ stop ≤ i := by
  cases hs : range.stop with
  | none => simp [isPast, hs]
  | some stop => simp [isPast, hs]

theorem isPast_eq_false_iff :
    range.isPast i = false ↔ ∀ stop, range.stop = some stop → i < stop := by
  cases hs : range.stop with
  | none => simp [isPast, hs]
  | some stop => simp [isPast, hs]

theorem not_selects_of_isPast (h : range.isPast i = true) (hij : i ≤ j) : ¬ range.Selects j := by
  rintro ⟨-, hstop, -⟩
  obtain ⟨stop, hs, hle⟩ := isPast_iff.mp (isPast_mono hij h)
  exact absurd (hstop stop hs) (by omega)

theorem isPast_of_selects (h : range.Selects i) : range.isPast i = false :=
  Bool.eq_false_iff.mpr fun hpast => not_selects_of_isPast hpast (Nat.le_refl i) h

/-- The selected ones of records whose indices begin with `first`, each with its index. -/
def selectedFrom (range : RowRange) (first : Nat) (records : List α) : List (α × Nat) :=
  (records.zipIdx first).filter fun p => range.Selects p.2

/-- The selected records of a table with their indices, which increase. -/
def selected (range : RowRange) (records : List α) : List (α × Nat) :=
  range.selectedFrom 0 records

theorem mem_selected_iff :
    (record, i) ∈ range.selected records ↔ records[i]? = some record ∧ range.Selects i := by
  simp only [selected, selectedFrom, List.mem_filter, List.mk_mem_zipIdx_iff_getElem?,
    decide_eq_true_eq]

theorem selects_all (i : Nat) : all.Selects i :=
  ⟨Nat.zero_le _, nofun, Nat.one_dvd _⟩

theorem selected_all (records : List α) : all.selected records = records.zipIdx :=
  List.filter_eq_self.mpr fun p _ => decide_eq_true (selects_all p.2)

theorem selectedFrom_cons_of_selects (h : range.Selects first) :
    range.selectedFrom first (record :: records)
      = (record, first) :: range.selectedFrom (first + 1) records := by
  simp [selectedFrom, List.zipIdx_cons, h]

theorem selectedFrom_cons_of_not_selects (h : ¬ range.Selects first) :
    range.selectedFrom first (record :: records) = range.selectedFrom (first + 1) records := by
  simp [selectedFrom, List.zipIdx_cons, h]

theorem selectedFrom_of_isPast (h : range.isPast first = true) :
    range.selectedFrom first records = [] := by
  refine List.filter_eq_nil_iff.mpr fun p hp => ?_
  have hle : first ≤ p.2 := List.le_snd_of_mem_zipIdx hp
  simpa using not_selects_of_isPast h hle

/-! ## Counting -/

/-- How many of `n` records are read: the first one behind the range is the last one. -/
def readCount (range : RowRange) (n : Nat) : Nat :=
  match range.stop with
  | none => n
  | some stop => min n (stop + 1)

theorem readCount_eq_self {n : Nat} (h : ∀ stop, range.stop = some stop → n ≤ stop) :
    range.readCount n = n := by
  unfold readCount
  split
  · rfl
  · rename_i stop hs
    have hle := h stop hs
    omega

/-- The record that ends the reading is counted, those behind it are not. -/
theorem readCount_of_isPast {n : Nat} (hin : ∀ stop, range.stop = some stop → first ≤ stop)
    (hpast : range.isPast first = true) (hn : first < n) : range.readCount n = first + 1 := by
  obtain ⟨stop, hs, hle⟩ := isPast_iff.mp hpast
  have hfirst := hin stop hs
  simp only [readCount, hs]
  omega

end RowRange

namespace Deriver

variable {d : Deriver} {options : TransformOptions} {headers cells : List String} {index : Nat}
  {counts : Summary} {records records' : List (List String)} {values : Nat → List Float}

/-- The cells that are written for a record with its index. -/
def derivedRow (options : TransformOptions) (values : Nat → List Float)
    (record : List String × Nat) : List String :=
  options.kept record.1 ++ (values record.2).map Cell.ofNumber

theorem writeRow_of_values (h : d.values index (.ofRecord headers cells) = .ok (values index)) :
    d.writeRow options headers index cells
      = .ok (Csv.writeRecord (derivedRow options values (cells, index))) := by
  unfold writeRow
  rw [h]
  rfl

/-! ## Steps -/

section
variable {others : List (Except Csv.Error (List String))}

theorem transformFrom_cons_past (h : options.range.isPast index = true) :
    d.transformFrom options headers index counts (.ok cells :: others)
      = ⟨[], .ok counts.countRead⟩ := by
  simp only [transformFrom, h, if_true]

theorem transformFrom_cons_skipped (hpast : options.range.isPast index = false)
    (h : ¬ options.range.Selects index) :
    d.transformFrom options headers index counts (.ok cells :: others)
      = d.transformFrom options headers (index + 1) counts.countRead others := by
  rw [← RowRange.contains_iff_selects] at h
  simp only [transformFrom, hpast, h, Bool.false_eq_true, if_false]

theorem transformFrom_cons_selected {row : Bytes} (h : options.range.Selects index)
    (hrow : d.writeRow options headers index cells = .ok row) :
    d.transformFrom options headers index counts (.ok cells :: others)
      = (d.transformFrom options headers (index + 1) counts.countRead.countWritten others).behind
          row := by
  have hpast := RowRange.isPast_of_selects h
  have hcontains := RowRange.contains_iff_selects.mpr h
  simp only [transformFrom, hpast, hcontains, hrow, Bool.false_eq_true, if_false, if_true]

theorem transformFrom_cons_failed {error : DeriveError} (h : options.range.Selects index)
    (hrow : d.writeRow options headers index cells = .error error) :
    d.transformFrom options headers index counts (.ok cells :: others) = ⟨[], .error error⟩ := by
  have hpast := RowRange.isPast_of_selects h
  have hcontains := RowRange.contains_iff_selects.mpr h
  simp only [transformFrom, hpast, hcontains, hrow, Bool.false_eq_true, if_false, if_true]

end

/-! ## Runs -/

/--
A run over records that all can be read. As long as it goes on, the index is the number of records
read before and does not lie behind the range.
-/
theorem transformFrom_of_values {written : Nat}
    (hin : ∀ stop, options.range.stop = some stop → index ≤ stop)
    (hvalues : ∀ i r, (r, i) ∈ options.range.selectedFrom index records →
      d.values i (.ofRecord headers r) = .ok (values i)) :
    d.transformFrom options headers index ⟨index, written⟩ (records.map .ok)
      = ⟨Csv.writeRecords
          ((options.range.selectedFrom index records).map (derivedRow options values)),
        .ok ⟨options.range.readCount (index + records.length),
          written + (options.range.selectedFrom index records).length⟩⟩ := by
  induction records generalizing index written with
  | nil =>
    rw [List.length_nil, Nat.add_zero, RowRange.readCount_eq_self hin]
    rfl
  | cons record records ih =>
    rw [List.map_cons]
    by_cases hpast : options.range.isPast index = true
    · have hlen : index < index + (record :: records).length := by simp
      rw [transformFrom_cons_past hpast, RowRange.selectedFrom_of_isPast hpast,
        RowRange.readCount_of_isPast hin hpast hlen]
      rfl
    · have hnext : ∀ stop, options.range.stop = some stop → index + 1 ≤ stop :=
        RowRange.isPast_eq_false_iff.mp (Bool.eq_false_iff.mpr hpast)
      have hlen : index + (record :: records).length = index + 1 + records.length := by
        simp only [List.length_cons]
        omega
      rw [hlen]
      by_cases hselects : options.range.Selects index
      · rw [RowRange.selectedFrom_cons_of_selects hselects] at hvalues ⊢
        have hrow : d.writeRow options headers index record = .ok _ :=
          writeRow_of_values (hvalues index record (.head _))
        rw [transformFrom_cons_selected hselects hrow]
        show (d.transformFrom options headers (index + 1) ⟨index + 1, written + 1⟩ _).behind _ = _
        rw [ih hnext fun i r hmem => hvalues i r (.tail _ hmem)]
        simp only [Derivation.behind, List.map_cons, Csv.writeRecords, List.flatMap_cons,
          List.length_cons, Nat.add_assoc, Nat.add_comm 1]
      · rw [RowRange.selectedFrom_cons_of_not_selects hselects] at hvalues ⊢
        rw [transformFrom_cons_skipped (Bool.eq_false_iff.mpr hpast) hselects]
        exact ih hnext hvalues

/-- Records that are not selected only count. -/
theorem transformFrom_congr (hlen : records'.length = records.length)
    (hsame : ∀ i, options.range.Selects (index + i) → records'[i]? = records[i]?) :
    d.transformFrom options headers index counts (records'.map .ok)
      = d.transformFrom options headers index counts (records.map .ok) := by
  induction records generalizing records' index counts with
  | nil => rw [List.length_eq_zero_iff.mp hlen]
  | cons record records ih =>
    cases records' with
    | nil => cases hlen
    | cons record' records' =>
      have hrest {counts} : d.transformFrom options headers (index + 1) counts (records'.map .ok)
          = d.transformFrom options headers (index + 1) counts (records.map .ok) := by
        refine ih (Nat.succ.inj hlen) fun i hi => ?_
        rw [Nat.add_right_comm] at hi
        simpa using hsame (i + 1) hi
      rw [List.map_cons, List.map_cons]
      by_cases hpast : options.range.isPast index = true
      · rw [transformFrom_cons_past hpast, transformFrom_cons_past hpast]
      · by_cases hselects : options.range.Selects index
        · have hrecord : record' = record := by simpa using hsame 0 hselects
          rw [hrecord]
          cases hrow : d.writeRow options headers index record with
          | error error =>
            rw [transformFrom_cons_failed hselects hrow, transformFrom_cons_failed hselects hrow]
          | ok row =>
            rw [transformFrom_cons_selected hselects hrow,
              transformFrom_cons_selected hselects hrow, hrest]
        · have hpast := Bool.eq_false_iff.mpr hpast
          rw [transformFrom_cons_skipped hpast hselects, transformFrom_cons_skipped hpast hselects,
            hrest]

/-! ## Tables -/

section
variable {input : Bytes}

theorem transform_of_table
    (htable : Csv.Table.ofBytes input = ⟨.ok headers, records.map .ok⟩) :
    d.transform options input
      = (d.transformFrom options headers 0 ⟨0, 0⟩ (records.map .ok)).behind
          (Csv.writeRecord (options.kept headers ++ d.names)) := by
  simp only [transform, transformTable, htable]

theorem transform_of_values
    (htable : Csv.Table.ofBytes input = ⟨.ok headers, records.map .ok⟩)
    (hvalues : ∀ i r, (r, i) ∈ options.range.selected records →
      d.values i (.ofRecord headers r) = .ok (values i)) :
    d.transform options input
      = ⟨Csv.writeRecords ((options.kept headers ++ d.names)
          :: (options.range.selected records).map (derivedRow options values)),
        .ok ⟨options.range.readCount records.length,
          (options.range.selected records).length⟩⟩ := by
  have hrun : d.transformFrom options headers 0 ⟨0, 0⟩ (records.map .ok) = _ :=
    transformFrom_of_values (fun _ _ => Nat.zero_le _) hvalues
  rw [transform_of_table htable, hrun, Nat.zero_add, Nat.zero_add]
  rfl

end

end Deriver

/--
If every selected record has values, the outcome of a run is that of a filter over the table: the
header, then the selected records in their order, each with its own index. All records up to the
first one behind the range are counted as read. The other records change nothing, not even where a
selected record has no values; and no range divides by zero.
-/
theorem transform_eq_batch (d : Deriver) (options : TransformOptions) (input : Bytes)
    (headers : List String) (records : List (List String))
    (htable : Csv.Table.ofBytes input = ⟨.ok headers, records.map .ok⟩) :
    (∀ values : Nat → List Float,
      (∀ i r, records[i]? = some r → options.range.Selects i →
        d.values i (.ofRecord headers r) = .ok (values i)) →
      d.transform options input
        = ⟨Csv.writeRecords ((options.kept headers ++ d.names)
            :: (options.range.selected records).map fun (r, i) =>
              options.kept r ++ (values i).map Cell.ofNumber),
          .ok ⟨options.range.readCount records.length,
            (options.range.selected records).length⟩⟩) ∧
    (∀ (input' : Bytes) (records' : List (List String)),
      Csv.Table.ofBytes input' = ⟨.ok headers, records'.map .ok⟩ →
      records'.length = records.length →
      (∀ i, options.range.Selects i → records'[i]? = records[i]?) →
      d.transform options input' = d.transform options input) ∧
    0 < options.range.divider := by
  refine ⟨fun values hvalues => ?_, fun input' records' htable' hlen hsame => ?_,
    options.range.divider_pos⟩
  · refine Deriver.transform_of_values htable fun i r hmem => ?_
    obtain ⟨hindex, hselects⟩ := List.mem_filter.mp hmem
    exact hvalues i r (List.mk_mem_zipIdx_iff_getElem?.mp hindex) (of_decide_eq_true hselects)
  · rw [Deriver.transform_of_table htable, Deriver.transform_of_table htable']
    rw [Deriver.transformFrom_congr hlen fun i hi => ?_]
    rw [Nat.zero_add] at hi
    exact hsame i hi

/-- The record with the index 3 is read and ends the run; the one with the index 1 is left out. -/
theorem transform_eq_batch_stopped :
    let d : Deriver := ⟨[⟨"y", "y = # + $a$", .binary .row '+' (.column "a")⟩], []⟩
    d.transform ⟨.of 0 (some 3) 2, false⟩ (Text.encode "a,b\n1,2\n?,?\n x , 4\n5\n6,7\n")
      = ⟨Text.encode "a,b,y\n1,2,1\nx,4,nan\n", .ok ⟨4, 2⟩⟩ := by
  intro d
  let input := Text.encode "a,b\n1,2\n?,?\n x , 4\n5\n6,7\n"
  let options : TransformOptions := ⟨.of 0 (some 3) 2, false⟩
  have hheaders : (Csv.Table.ofBytes input).headers = .ok ["a", "b"] := by decide +kernel
  have hrecords : (Csv.Table.ofBytes input).records
      = [["1", "2"], ["?", "?"], ["x", "4"], ["5"], ["6", "7"]].map .ok := by decide +kernel
  have htable : Csv.Table.ofBytes input = ⟨_, _⟩ := congrArg₂ Csv.Table.mk hheaders hrecords
  have hvalues : ∀ i r, [["1", "2"], ["?", "?"], ["x", "4"], ["5"], ["6", "7"]][i]? = some r →
      options.range.Selects i → d.values i (.ofRecord ["a", "b"] r)
        = .ok (if i = 0 then [1.0] else [0.0 / 0.0]) := by
    rintro i r hr ⟨-, hstop, hdivides⟩
    have hi : i < 3 := hstop 3 rfl
    interval_cases i
    · cases hr
      decide +kernel
    · exact absurd hdivides (by decide)
    · cases hr
      decide +kernel
  refine ((transform_eq_batch d options input _ _ htable).1 _ hvalues).trans ?_
  rw [Derivation.mk.injEq]
  constructor
  · decide +kernel
  · decide +kernel

end ColumnCalc
