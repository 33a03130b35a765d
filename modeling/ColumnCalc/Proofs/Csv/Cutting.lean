import ColumnCalc.Csv.Table
import Mathlib.Data.List.Infix

/-!
# Tables cut off before a record

Every row knows the place where its reading began. The bytes in front of that place hold exactly the
rows in front of it (`rows_take`), so a table that is cut off there has the same headers and the
records up to that one (`Table.ofBytes_take`).
-/

namespace ColumnCalc

namespace Csv

variable {bytes : Bytes} {began here : Place} {mode : Mode} {cells : List Bytes} {cell : Bytes}
  {row : Row} {front back : List Row}

/-! ## Scanning -/

/-- A byte goes on with the row in progress or ends it. -/
theorem scan_cons (began here : Place) (mode : Mode) (cells : List Bytes) (cell : Bytes)
    (b : UInt8) :
    (∃ mode' cells' cell', ∀ bs, scan began here mode cells cell (b :: bs)
      = scan began (here.past b) mode' cells' cell' bs) ∨
    (∀ bs, scan began here mode cells cell (b :: bs) = .close began cells cell
      :: scan (here.past b).nextRow (here.past b).nextRow .between [] [] bs) := by
  cases haction : mode.action b with
  | drop next => exact .inl ⟨next, cells, cell, fun bs => by simp only [scan, haction]⟩
  | take next => exact .inl ⟨next, cells, b :: cell, fun bs => by simp only [scan, haction]⟩
  | endCell =>
    exact .inl ⟨.cellStart, cell.reverse :: cells, [], fun bs => by simp only [scan, haction]⟩
  | endRow => exact .inr fun bs => by simp only [scan, haction]

theorem length_scan_nil_le : (scan began here mode cells cell []).length ≤ 1 := by
  simp only [scan]
  split
  · exact Nat.zero_le _
  · exact Nat.le_refl _

theorem place_of_scan_eq_cons (h : scan began here mode cells cell bytes = row :: back) :
    row.place = began := by
  induction bytes generalizing here mode cells cell with
  | nil =>
    simp only [scan] at h
    split at h
    · cases h
    · cases h
      rfl
  | cons b bs ih =>
    rcases scan_cons began here mode cells cell b with ⟨_, _, _, hnext⟩ | hnext
    · exact ih ((hnext bs).symm.trans h)
    · cases (hnext bs).symm.trans h
      rfl

/-- Of the bytes that a scan reads, those in front of a later row hold the rows in front of it. -/
theorem exists_scan_of_eq_append (hfront : front ≠ [])
    (h : scan began here mode cells cell bytes = front ++ row :: back) :
    ∃ before after, bytes = before ++ after ∧ row.place.byte = here.byte + before.length ∧
      scan began here mode cells cell before = front := by
  induction bytes generalizing began here mode cells cell front with
  | nil =>
    have hlen : (scan began here mode cells cell []).length ≤ 1 := length_scan_nil_le
    have hpos := List.length_pos_iff.mpr hfront
    rw [h, List.length_append, List.length_cons] at hlen
    omega
  | cons b bs ih =>
    have hbyte : (here.past b).byte = here.byte + 1 := rfl
    rcases scan_cons began here mode cells cell b with ⟨_, _, _, hnext⟩ | hnext
    · obtain ⟨before, after, rfl, hplace, hscan⟩ := ih hfront ((hnext bs).symm.trans h)
      refine ⟨b :: before, after, rfl, ?_, (hnext before).trans hscan⟩
      rw [hplace, hbyte, List.length_cons]
      omega
    · cases front with
      | nil => exact absurd rfl hfront
      | cons first front =>
        have hrows := (hnext bs).symm.trans h
        rw [List.cons_append, List.cons.injEq] at hrows
        obtain ⟨rfl, hrest⟩ := hrows
        by_cases hnil : front = []
        · subst hnil
          refine ⟨[b], bs, rfl, ?_, hnext []⟩
          rw [place_of_scan_eq_cons hrest]
          rfl
        · obtain ⟨before, after, rfl, hplace, hscan⟩ := ih hnil hrest
          refine ⟨b :: before, after, rfl, ?_, (hnext before).trans (congrArg _ hscan)⟩
          rw [hplace, List.length_cons]
          show (here.past b).byte + before.length = _
          rw [hbyte]
          omega

/-! ## Rows -/

theorem rows_mark_append (bytes : Bytes) : rows (byteOrderMark ++ bytes)
    = scan .start (byteOrderMark.foldl .past .start) .between [] [] bytes := by
  rw [rows, if_pos (List.isPrefixOf_iff_prefix.mpr (List.prefix_append ..)), List.drop_left]

theorem rows_of_unmarked (h : ¬ byteOrderMark <+: bytes) :
    rows bytes = scan .start .start .between [] [] bytes := by
  rw [rows, if_neg (mt List.isPrefixOf_iff_prefix.mp h)]

/-- The bytes in front of a row that is not the first one hold the rows in front of it. -/
theorem rows_take (hfront : front ≠ []) (h : rows bytes = front ++ row :: back) :
    rows (bytes.take row.place.byte) = front := by
  by_cases hmark : byteOrderMark <+: bytes
  · obtain ⟨rest, rfl⟩ := hmark
    rw [rows_mark_append] at h
    obtain ⟨before, after, rfl, hplace, hscan⟩ := exists_scan_of_eq_append hfront h
    have hlen : row.place.byte = (byteOrderMark ++ before).length := by
      rw [hplace, List.length_append]
      rfl
    rw [hlen, ← List.append_assoc, List.take_left, rows_mark_append, hscan]
  · rw [rows_of_unmarked hmark] at h
    obtain ⟨before, after, rfl, hplace, hscan⟩ := exists_scan_of_eq_append hfront h
    have hlen : row.place.byte = before.length := by
      rw [hplace]
      exact Nat.zero_add _
    have hbefore : ¬ byteOrderMark <+: before :=
      fun hmark' => hmark (hmark'.trans (List.prefix_append ..))
    rw [hlen, List.take_left, rows_of_unmarked hbefore, hscan]

/-! ## Tables -/

theorem Table.ofBytes_of_rows {first : Row} {others : List Row} (h : rows bytes = first :: others) :
    Table.ofBytes bytes = ⟨decodeRow id first, others.map (decodeRow trimAscii)⟩ := by
  simp only [Table.ofBytes, h]

/-- The record with the index `i` comes from the row behind the header and `i` records. -/
theorem Table.getElem?_records {i : Nat} : (Table.ofBytes bytes).records[i]?
    = (rows bytes)[i + 1]?.map (decodeRow trimAscii) := by
  cases hrows : rows bytes with
  | nil => simp [Table.ofBytes, hrows]
  | cons first others => simp [Table.ofBytes_of_rows hrows]

theorem Table.ofBytes_take {i : Nat} (h : (rows bytes)[i + 1]? = some row) :
    Table.ofBytes (bytes.take row.place.byte)
      = ⟨(Table.ofBytes bytes).headers, (Table.ofBytes bytes).records.take i⟩ := by
  cases hrows : rows bytes with
  | nil =>
    rw [hrows] at h
    cases h
  | cons first others =>
    rw [hrows, List.getElem?_cons_succ] at h
    obtain ⟨hi, hrow⟩ := List.getElem?_eq_some_iff.mp h
    have hsplit : first :: others = (first :: others.take i) ++ row :: others.drop (i + 1) := by
      rw [List.cons_append, ← hrow, ← List.drop_eq_getElem_cons hi, List.take_append_drop]
    have hcut := rows_take (List.cons_ne_nil _ _) (hrows.trans hsplit)
    rw [ofBytes_of_rows hcut, ofBytes_of_rows hrows, List.map_take]

end Csv

end ColumnCalc
