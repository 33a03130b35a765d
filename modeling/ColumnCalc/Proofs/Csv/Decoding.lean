import ColumnCalc.Proofs.Csv.Rereading

/-!
# Texts as tables

A byte that separates cells or rows, or that quotes, is a character by itself. So the scanner cuts a
text in UTF-8 between characters only, every cell is a text (`isText_of_mem_scan`), and a text is a
table without rows that cannot be read (`Table.exists_ofBytes_encode`).
-/

namespace ColumnCalc

open Text (encode)

namespace Csv

/-- The bytes are those of a text. -/
def IsText (bytes : Bytes) : Prop :=
  ∃ text, bytes = encode text

variable {began here place : Place} {mode : Mode} {cells : List Bytes} {cell bytes bytes' : Bytes}
  {row : Row}

theorem IsText.nil : IsText [] :=
  ⟨"", rfl⟩

theorem IsText.append (h : IsText bytes) (h' : IsText bytes') : IsText (bytes ++ bytes') := by
  obtain ⟨text, rfl⟩ := h
  obtain ⟨text', rfl⟩ := h'
  exact ⟨text ++ text', (Text.encode_append text text').symm⟩

theorem isText_char (c : Char) : IsText (String.utf8EncodeChar c) := by
  refine ⟨.ofList [c], ?_⟩
  rw [encode_eq_flatMap, String.toList_ofList, List.flatMap_singleton]

/-! ## Characters -/

theorem isSpecial_of_le {b : UInt8} (h : 0x80 ≤ b.toNat) : isSpecial b = false := by
  have hne : ∀ d : UInt8, d.toNat < 0x80 → b ≠ d := by
    rintro d hd rfl
    omega
  rw [isSpecial_eq_false_iff]
  refine ⟨hne _ (by decide), hne _ (by decide), ?_⟩
  simp [isLineEnd, hne lineFeed (by decide), hne carriageReturn (by decide)]

/-- A character is one byte, or no byte of it is special. -/
theorem utf8EncodeChar_cases (c : Char) :
    (∃ b, String.utf8EncodeChar c = [b]) ∨ ∀ b ∈ String.utf8EncodeChar c, isSpecial b = false := by
  have hbyte {n : Nat} (h : 0x80 ≤ n) (h' : n < 0x100) : isSpecial (.ofNat n) = false := by
    refine isSpecial_of_le ?_
    rwa [UInt8.toNat_ofNat', Nat.mod_eq_of_lt h']
  simp only [String.utf8EncodeChar]
  split
  · exact .inl ⟨_, rfl⟩
  · right
    split_ifs <;>
      simp (disch := omega) only [List.forall_mem_cons, hbyte, true_and, List.not_mem_nil,
        false_imp_iff, implies_true]

/-- Bytes that are not special belong to the cell in progress, quoted or not. -/
theorem exists_reaches_of_not_isSpecial (mode : Mode) (cells : List Bytes) (cell : Bytes)
    (h : ∀ b ∈ bytes, isSpecial b = false) :
    ∃ next, Reaches bytes ⟨mode, cells, cell⟩ ⟨next, cells, bytes.reverse ++ cell⟩ := by
  induction bytes generalizing mode cell with
  | nil => exact ⟨mode, .refl _⟩
  | cons b bytes ih =>
    obtain ⟨hb, hbytes⟩ := List.forall_mem_cons.mp h
    obtain ⟨first, hfirst⟩ : ∃ first, mode.action b = .take first := by
      by_cases hmode : mode = .quoted
      · subst hmode
        exact ⟨.quoted, if_neg (isSpecial_eq_false_iff.mp hb).2.1⟩
      · exact ⟨.bare, action_of_not_isSpecial hmode hb⟩
    obtain ⟨next, hnext⟩ := ih first (b :: cell) hbytes
    refine ⟨next, ?_⟩
    rw [List.reverse_cons, List.append_assoc]
    exact (reaches_of_take hfirst).trans hnext

/-! ## Rows -/

theorem isText_of_mem_close (hcells : ∀ c ∈ cells, IsText c) (hcell : IsText cell.reverse) :
    ∀ c ∈ (Row.close place cells cell).cells, IsText c := by
  intro c hc
  rcases List.mem_cons.mp (List.mem_reverse.mp hc) with rfl | hc
  · exact hcell
  · exact hcells c hc

/-- The scanner does not cut a character in two. -/
theorem isText_of_mem_scan {chars : List Char} (hcells : ∀ c ∈ cells, IsText c)
    (hcell : IsText cell.reverse)
    (hrow : row ∈ scan began here mode cells cell (chars.flatMap String.utf8EncodeChar)) :
    ∀ c ∈ row.cells, IsText c := by
  have hnil : IsText ([] : Bytes).reverse := .nil
  induction chars generalizing began here mode cells cell with
  | nil =>
    simp only [List.flatMap_nil, scan] at hrow
    split at hrow
    · cases hrow
    · rw [List.mem_singleton.mp hrow]
      exact isText_of_mem_close hcells hcell
  | cons d chars ih =>
    have htake : IsText (String.utf8EncodeChar d).reverse.reverse := by
      rw [List.reverse_reverse]
      exact isText_char d
    have hnext : IsText ((String.utf8EncodeChar d).reverse ++ cell).reverse := by
      rw [List.reverse_append]
      exact hcell.append htake
    rw [List.flatMap_cons] at hrow
    rcases utf8EncodeChar_cases d with ⟨b, hb⟩ | hbytes
    · rw [hb] at hrow hnext
      rw [List.singleton_append] at hrow
      cases haction : mode.action b with
      | drop next =>
        simp only [scan, haction] at hrow
        exact ih hcells hcell hrow
      | take next =>
        simp only [scan, haction] at hrow
        exact ih hcells hnext hrow
      | endCell =>
        simp only [scan, haction] at hrow
        exact ih (List.forall_mem_cons.mpr ⟨hcell, hcells⟩) hnil hrow
      | endRow =>
        simp only [scan, haction] at hrow
        rcases List.mem_cons.mp hrow with rfl | hrow
        · exact isText_of_mem_close hcells hcell
        · exact ih (List.forall_mem_nil _) hnil hrow
    · obtain ⟨next, hreaches⟩ := exists_reaches_of_not_isSpecial mode cells cell hbytes
      obtain ⟨here', hscan⟩ := hreaches began here
      rw [hscan] at hrow
      exact ih hcells hnext hrow

theorem isText_of_mem_rows {text : String} (hrow : row ∈ rows (encode text)) :
    ∀ c ∈ row.cells, IsText c := by
  have hnil : IsText ([] : Bytes).reverse := .nil
  by_cases hmark : byteOrderMark <+: encode text
  · have hhead := head?_of_byteOrderMark hmark
    rw [encode_eq_flatMap] at hrow
    cases hchars : text.toList with
    | nil =>
      rw [hchars] at hhead
      cases hhead
    | cons c chars =>
      rw [hchars, List.head?_cons, Option.some.injEq] at hhead
      rw [hchars, List.flatMap_cons, hhead,
        show String.utf8EncodeChar '\uFEFF' = byteOrderMark by decide, rows_mark_append] at hrow
      exact isText_of_mem_scan (List.forall_mem_nil _) hnil hrow
  · rw [rows_of_unmarked hmark, encode_eq_flatMap] at hrow
    exact isText_of_mem_scan (List.forall_mem_nil _) hnil hrow

/-! ## Tables -/

theorem exists_decodeRow_eq_ok (counted : Bytes → Bytes) (h : ∀ c ∈ row.cells, IsText c) :
    ∃ texts, decodeRow counted row = .ok texts := by
  refine exists_mapM_eq_ok_iff.mpr fun ⟨bytes, i⟩ hmem => ?_
  obtain ⟨text, htext⟩ := h bytes (List.fst_mem_of_mem_zipIdx hmem)
  exact ⟨Text.trim text, by simp only [Text.decode?_eq_some_iff.mpr htext]⟩

/-- Every row of a text can be read. -/
theorem Table.exists_ofBytes_encode (text : String) :
    ∃ (headers : List String) (records : List (List String)),
      Table.ofBytes (encode text) = ⟨.ok headers, records.map .ok⟩ := by
  cases hrows : rows (encode text) with
  | nil => exact ⟨[], [], by simp only [Table.ofBytes, hrows, List.map_nil]⟩
  | cons first others =>
    have hread : ∀ counted, ∀ row ∈ first :: others, ∃ texts, decodeRow counted row = .ok texts :=
      fun counted row hrow => exists_decodeRow_eq_ok counted (isText_of_mem_rows (hrows ▸ hrow))
    obtain ⟨headers, hheaders⟩ := hread id first (.head _)
    obtain ⟨records, hrecords⟩ :=
      exists_mapM_eq_ok_iff.mpr fun row hrow => hread trimAscii row (.tail _ hrow)
    refine ⟨headers, records, ?_⟩
    rw [ofBytes_of_rows hrows, hheaders]
    rw [map_eq_map_iff_forall₂.mpr (mapM_eq_ok_iff.mp hrecords)]

end Csv

end ColumnCalc
