import ColumnCalc.Csv.Table
import ColumnCalc.Proofs.Csv.Cutting
import ColumnCalc.Proofs.Results
import ColumnCalc.Proofs.Text.Trimming

/-!
# Written records read back

Each piece of a written record takes the scanner from one point of a row to another (`Reaches`): a
byte of a quoted cell, a cell, a line. Behind a line stands a line feed, which ends the row, unless
the line is empty; so a record of one empty cell is written with quotes. A table that was written is
read back with its cells trimmed (`Table.ofBytes_writeRecords`), unless its first cell begins with
what is the mark of a file there (`not_byteOrderMark_writeRecords`).
-/

namespace ColumnCalc

open Text (encode decode?)

namespace Csv

/-- How far a row has been read: the mode, and its cells and the last one's bytes in reverse. -/
structure Point where
  mode : Mode
  cells : List Bytes
  cell : Bytes

/-- The bytes take a row from one point to the other, whatever stands behind them. -/
def Reaches (bytes : Bytes) (p q : Point) : Prop :=
  ∀ began here, ∃ here', ∀ rest, scan began here p.mode p.cells p.cell (bytes ++ rest)
    = scan began here' q.mode q.cells q.cell rest

variable {mode : Mode} {cells : List Bytes} {cell : Bytes} {b : UInt8} {bytes : Bytes}
  {p q r : Point}

/-! ## Bytes -/

theorem Reaches.refl (p : Point) : Reaches [] p p :=
  fun _ here => ⟨here, fun _ => rfl⟩

theorem Reaches.trans {bytes' : Bytes} (h : Reaches bytes p q) (h' : Reaches bytes' q r) :
    Reaches (bytes ++ bytes') p r := by
  intro began here
  obtain ⟨_, hpq⟩ := h began here
  obtain ⟨here', hqr⟩ := h' began _
  exact ⟨here', fun rest => by rw [List.append_assoc, hpq, hqr]⟩

theorem reaches_of_drop {next : Mode} (h : mode.action b = .drop next) :
    Reaches [b] ⟨mode, cells, cell⟩ ⟨next, cells, cell⟩ :=
  fun _ here => ⟨here.past b, fun _ => by simp only [List.cons_append, scan, h, List.nil_append]⟩

theorem reaches_of_take {next : Mode} (h : mode.action b = .take next) :
    Reaches [b] ⟨mode, cells, cell⟩ ⟨next, cells, b :: cell⟩ :=
  fun _ here => ⟨here.past b, fun _ => by simp only [List.cons_append, scan, h, List.nil_append]⟩

theorem reaches_of_endCell (h : mode.action b = .endCell) (cells : List Bytes) (cell : Bytes) :
    Reaches [b] ⟨mode, cells, cell⟩ ⟨.cellStart, cell.reverse :: cells, []⟩ :=
  fun _ here => ⟨here.past b, fun _ => by simp only [List.cons_append, scan, h, List.nil_append]⟩

theorem action_comma (h : mode ≠ .quoted) : mode.action comma = .endCell := by
  cases mode with
  | quoted => exact absurd rfl h
  | _ => rfl

theorem action_lineFeed (h : mode ≠ .quoted) (h' : mode ≠ .between) :
    mode.action lineFeed = .endRow := by
  cases mode with
  | quoted => exact absurd rfl h
  | between => exact absurd rfl h'
  | _ => rfl

/-! ## Cells -/

theorem isSpecial_eq_false_iff :
    isSpecial b = false ↔ b ≠ comma ∧ b ≠ quote ∧ isLineEnd b = false := by
  simp only [isSpecial, Bool.or_eq_false_iff, decide_eq_false_iff_not, and_assoc, ne_eq]

theorem action_of_not_isSpecial (hmode : mode ≠ .quoted) (h : isSpecial b = false) :
    mode.action b = .take .bare := by
  obtain ⟨hcomma, hquote, hline⟩ := isSpecial_eq_false_iff.mp h
  cases mode with
  | quoted => exact absurd rfl hmode
  | _ => simp [Mode.action, Action.ofBare, hcomma, hquote, hline]

theorem reaches_bare (h : ∀ b ∈ bytes, isSpecial b = false) :
    Reaches bytes ⟨.bare, cells, cell⟩ ⟨.bare, cells, bytes.reverse ++ cell⟩ := by
  induction bytes generalizing cell with
  | nil => exact .refl _
  | cons b bytes ih =>
    obtain ⟨hb, hbytes⟩ := List.forall_mem_cons.mp h
    have hfirst : Mode.bare.action b = .take .bare := action_of_not_isSpecial nofun hb
    rw [List.reverse_cons, List.append_assoc]
    exact (reaches_of_take hfirst).trans (ih hbytes)

theorem reaches_quotedByte (b : UInt8) :
    Reaches (quotedByte b) ⟨.quoted, cells, cell⟩ ⟨.quoted, cells, b :: cell⟩ := by
  unfold quotedByte
  split
  · rename_i hb
    subst hb
    have hfirst : Mode.quoted.action quote = .drop .quoteSeen := rfl
    exact (reaches_of_drop hfirst).trans (reaches_of_take rfl)
  · rename_i hb
    exact reaches_of_take (by simp [Mode.action, hb])

theorem reaches_quoted (cells : List Bytes) (cell bytes : Bytes) :
    Reaches (bytes.flatMap quotedByte) ⟨.quoted, cells, cell⟩
      ⟨.quoted, cells, bytes.reverse ++ cell⟩ := by
  induction bytes generalizing cell with
  | nil => exact .refl _
  | cons b bytes ih =>
    rw [List.reverse_cons, List.append_assoc]
    exact (reaches_quotedByte b).trans (ih _)

/-- The modes in which a cell begins. -/
def Mode.Opens (mode : Mode) : Prop :=
  mode = .between ∨ mode = .cellStart

theorem Mode.Opens.ne_quoted (h : mode.Opens) : mode ≠ .quoted := by
  rcases h with rfl | rfl
  · nofun
  · nofun

theorem reaches_quoteCell (hmode : mode.Opens) (bytes : Bytes) :
    Reaches (quoteCell bytes) ⟨mode, cells, []⟩ ⟨.quoteSeen, cells, bytes.reverse⟩ := by
  have hopen : mode.action quote = .drop .quoted := by
    rcases hmode with rfl | rfl
    · rfl
    · rfl
  have hbytes : Reaches (bytes.flatMap quotedByte) ⟨.quoted, cells, []⟩
      ⟨.quoted, cells, bytes.reverse⟩ := by
    simpa using reaches_quoted cells [] bytes
  exact (reaches_of_drop hopen).trans (hbytes.trans (reaches_of_drop rfl))

theorem writeCell_cases (text : String) : writeCell text = quoteCell (encode text) ∨
    writeCell text = encode text ∧ ∀ b ∈ encode text, isSpecial b = false := by
  unfold writeCell
  by_cases hspecial : (encode text).any isSpecial = true
  · exact .inl (if_pos hspecial)
  · exact .inr ⟨if_neg hspecial, by simpa using hspecial⟩

/--
The mode in which a written piece leaves a row: outside quotes, and without a row only if there was
none before and nothing was written.
-/
structure Mode.Ends (start : Mode) (written : Bytes) (mode : Mode) : Prop where
  notQuoted : mode ≠ .quoted
  nothing : mode = .between → start = .between ∧ written = []

theorem exists_reaches_writeCell (hmode : mode.Opens) (cells : List Bytes) (text : String) :
    ∃ next, mode.Ends (writeCell text) next ∧
      Reaches (writeCell text) ⟨mode, cells, []⟩ ⟨next, cells, (encode text).reverse⟩ := by
  obtain hwritten | ⟨hwritten, hbytes⟩ := writeCell_cases text
  · rw [hwritten]
    exact ⟨.quoteSeen, ⟨nofun, nofun⟩, reaches_quoteCell hmode _⟩
  · rw [hwritten]
    generalize encode text = bytes at hbytes ⊢
    cases bytes with
    | nil => exact ⟨mode, ⟨hmode.ne_quoted, fun h => ⟨h, rfl⟩⟩, .refl _⟩
    | cons b bytes =>
      obtain ⟨hb, hbytes⟩ := List.forall_mem_cons.mp hbytes
      have hfirst := action_of_not_isSpecial hmode.ne_quoted hb
      refine ⟨.bare, ⟨nofun, nofun⟩, ?_⟩
      rw [List.reverse_cons]
      exact (reaches_of_take hfirst).trans (reaches_bare hbytes)

/-! ## Lines -/

theorem close_eq (place : Place) (cells : List Bytes) (bytes : Bytes) :
    Row.close place cells bytes.reverse = ⟨place, cells.reverse ++ [bytes]⟩ := by
  rw [Row.close, List.reverse_reverse, List.reverse_cons]

/-- A line is read as its cells, up to the byte that ends the row. -/
theorem exists_reaches_line (hmode : mode.Opens) (cells : List Bytes) (text : String)
    (texts : List String) :
    ∃ p : Point, mode.Ends ([comma].intercalate ((text :: texts).map writeCell)) p.mode ∧
      Reaches ([comma].intercalate ((text :: texts).map writeCell)) ⟨mode, cells, []⟩ p ∧
      ∀ place, Row.close place p.cells p.cell
        = ⟨place, cells.reverse ++ (text :: texts).map encode⟩ := by
  induction texts generalizing mode cells text with
  | nil =>
    obtain ⟨next, hends, hcell⟩ := exists_reaches_writeCell hmode cells text
    exact ⟨⟨next, cells, (encode text).reverse⟩, by simpa using hends, by simpa using hcell,
      fun place => close_eq ..⟩
  | cons other texts ih =>
    obtain ⟨next, hends, hcell⟩ := exists_reaches_writeCell hmode cells text
    obtain ⟨p, hends', hline, hclose⟩ := ih (.inr rfl) (encode text :: cells) other
    have hcomma : Reaches [comma] ⟨next, cells, (encode text).reverse⟩
        ⟨.cellStart, encode text :: cells, []⟩ := by
      simpa using reaches_of_endCell (action_comma hends.notQuoted) cells (encode text).reverse
    -- The comma has begun a row, so the rest of the line need not write anything.
    refine ⟨p, ⟨hends'.notQuoted, fun h => absurd (hends'.nothing h).1 nofun⟩, ?_, ?_⟩
    · rw [List.map_cons, List.map_cons, List.intercalate_cons_cons]
      exact (hcell.trans hcomma).trans hline
    · intro place
      rw [hclose, List.reverse_cons, List.append_assoc]
      rfl

/-! ## Records -/

/-- The cells that a written record is read back with: there is no row without a cell. -/
def written (texts : List String) : List String :=
  if texts.isEmpty then [""] else texts

theorem written_of_ne_nil {texts : List String} (h : texts ≠ []) : written texts = texts :=
  if_neg (by simpa using h)

/-- Only one empty cell makes an empty line. -/
theorem map_encode_of_line_eq_nil {text : String} {texts : List String}
    (h : [comma].intercalate ((text :: texts).map writeCell) = []) :
    (text :: texts).map encode = [[]] := by
  cases texts with
  | nil =>
    rw [List.map_singleton, List.intercalate_singleton] at h
    obtain hwritten | ⟨hwritten, -⟩ := writeCell_cases text
    · rw [hwritten] at h
      cases h
    · rw [List.map_singleton, ← hwritten, h]
  | cons other texts =>
    rw [List.map_cons, List.map_cons, List.intercalate_cons_cons] at h
    exact absurd h (by simp)

/-- A line feed ends a row that is neither quoted nor without a cell. -/
theorem exists_scan_of_reaches {line : Bytes} (hline : Reaches line ⟨.between, [], []⟩ p)
    (hquoted : p.mode ≠ .quoted) (hbetween : p.mode ≠ .between) (here : Place) :
    ∃ here', ∀ rest, scan here here .between [] [] (line ++ [lineFeed] ++ rest)
      = Row.close here p.cells p.cell :: scan here' here' .between [] [] rest := by
  obtain ⟨here', hscan⟩ := hline here here
  refine ⟨(here'.past lineFeed).nextRow, fun rest => ?_⟩
  rw [List.append_assoc, hscan]
  simp only [List.cons_append, List.nil_append, scan, action_lineFeed hquoted hbetween]

theorem exists_scan_writeRecord (texts : List String) (here : Place) : ∃ here', ∀ rest,
    scan here here .between [] [] (writeRecord texts ++ rest)
      = ⟨here, (written texts).map encode⟩ :: scan here' here' .between [] [] rest := by
  have hblank : ∃ here', ∀ rest, scan here here .between [] [] (quoteCell [] ++ [lineFeed] ++ rest)
      = ⟨here, [[]]⟩ :: scan here' here' .between [] [] rest :=
    exists_scan_of_reaches (reaches_quoteCell (.inl rfl) []) nofun nofun here
  unfold writeRecord
  cases texts with
  | nil => exact hblank
  | cons text texts =>
    obtain ⟨p, hends, hline, hclose⟩ := exists_reaches_line (.inl rfl) [] text texts
    rw [written_of_ne_nil (List.cons_ne_nil _ _)]
    by_cases hempty : ([comma].intercalate ((text :: texts).map writeCell)).isEmpty = true
    · simp only [hempty, if_true]
      rw [map_encode_of_line_eq_nil (List.isEmpty_iff.mp hempty)]
      exact hblank
    · obtain ⟨here', hscan⟩ := exists_scan_of_reaches hline hends.notQuoted
        (fun h => hempty (List.isEmpty_iff.mpr (hends.nothing h).2)) here
      refine ⟨here', fun rest => ?_⟩
      simp only [hempty, Bool.false_eq_true, if_false]
      rw [hscan, hclose]
      rfl

/-- The rows of a written table are its records. -/
theorem cells_scan_writeRecords (records : List (List String)) (here : Place) :
    (scan here here .between [] [] (writeRecords records)).map Row.cells
      = records.map fun texts => (written texts).map encode := by
  induction records generalizing here with
  | nil => rfl
  | cons texts records ih =>
    obtain ⟨here', hscan⟩ := exists_scan_writeRecord texts here
    rw [writeRecords, List.flatMap_cons, hscan, List.map_cons, List.map_cons]
    exact congrArg _ (ih here')

/-! ## Tables -/

theorem decodeRow_of_cells {counted : Bytes → Bytes} {row : Row} {texts : List String}
    (h : row.cells = texts.map encode) : decodeRow counted row = .ok (texts.map Text.trim) := by
  rw [decodeRow, mapM_eq_ok_iff, h]
  clear h
  generalize 0 = i
  induction texts generalizing i with
  | nil => exact .nil
  | cons text texts ih =>
    refine .cons ?_ (ih (i + 1))
    simp only [Text.decode?_eq_some_iff.mpr rfl]

/-- The cells of a row that was read are trimmed. -/
theorem trim_of_decodeRow {counted : Bytes → Bytes} {row : Row} {texts : List String}
    (h : decodeRow counted row = .ok texts) : texts.map Text.trim = texts := by
  have hcells := mapM_eq_ok_iff.mp h
  rw [← List.forall₂_eq_eq_eq, List.forall₂_map_left_iff, List.forall₂_same]
  intro text hmem
  obtain ⟨bytes, -, hbytes⟩ := exists_of_forall₂ hcells.flip hmem
  simp only at hbytes
  split at hbytes
  · rw [← Except.ok.inj hbytes, Text.trim_trim]
  · cases hbytes

theorem Table.trim_of_headers {texts : List String}
    (h : (Table.ofBytes bytes).headers = .ok texts) : texts.map Text.trim = texts := by
  cases hrows : rows bytes with
  | nil =>
    simp only [Table.ofBytes, hrows] at h
    cases h
    rfl
  | cons first others =>
    rw [ofBytes_of_rows hrows] at h
    exact trim_of_decodeRow h

theorem Table.trim_of_mem_records {texts : List String}
    (h : .ok texts ∈ (Table.ofBytes bytes).records) : texts.map Text.trim = texts := by
  cases hrows : rows bytes with
  | nil =>
    simp only [Table.ofBytes, hrows] at h
    cases h
  | cons first others =>
    rw [ofBytes_of_rows hrows] at h
    obtain ⟨row, -, hrow⟩ := List.mem_map.mp h
    exact trim_of_decodeRow hrow

/-- A table that was written is read back with its cells trimmed. -/
theorem Table.ofBytes_writeRecords {first : List String} {others : List (List String)}
    (h : ¬ byteOrderMark <+: writeRecords (first :: others)) :
    Table.ofBytes (writeRecords (first :: others))
      = ⟨.ok ((written first).map Text.trim),
        others.map fun texts => .ok ((written texts).map Text.trim)⟩ := by
  have hcells := cells_scan_writeRecords (first :: others) .start
  rw [← rows_of_unmarked h, map_eq_map_iff_forall₂, List.forall₂_cons_right_iff] at hcells
  obtain ⟨row, rows', hrow, hrows, hsplit⟩ := hcells
  have hothers : rows'.map (decodeRow trimAscii)
      = others.map fun texts => .ok ((written texts).map Text.trim) :=
    map_eq_map_iff_forall₂.mpr (hrows.imp fun _ _ => decodeRow_of_cells)
  rw [ofBytes_of_rows hsplit, decodeRow_of_cells hrow, hothers]

/-! ## The mark in front -/

theorem encode_eq_flatMap (text : String) :
    encode text = text.toList.flatMap String.utf8EncodeChar := by
  have hbytes : text.toByteArray = (text.toList.flatMap String.utf8EncodeChar).toByteArray := by
    conv_lhs => rw [← String.ofList_toList (s := text), String.toByteArray_ofList]
    rfl
  rw [encode, hbytes, List.data_toByteArray]

/-- The bytes of a text begin with those of its first character only. -/
theorem eq_of_utf8EncodeChar_append {c d : Char} {rest rest' : Bytes}
    (h : String.utf8EncodeChar c ++ rest = String.utf8EncodeChar d ++ rest') : c = d := by
  have hfirst : ∀ (c : Char) (rest : Bytes),
      (String.utf8EncodeChar c ++ rest).toByteArray.utf8DecodeChar? 0 = some c := by
    intro c rest
    rw [List.toByteArray_append]
    exact ByteArray.utf8DecodeChar?_utf8EncodeChar_append
  have hdecode := hfirst c rest
  rw [h, hfirst] at hdecode
  exact (Option.some.inj hdecode).symm

theorem head?_of_byteOrderMark {text : String} (h : byteOrderMark <+: encode text) :
    text.toList.head? = some '\uFEFF' := by
  obtain ⟨rest, h⟩ := h
  rw [encode_eq_flatMap] at h
  have hmark : byteOrderMark = String.utf8EncodeChar '\uFEFF' := by decide
  cases hchars : text.toList with
  | nil =>
    rw [hchars] at h
    exact absurd h (by simp [byteOrderMark])
  | cons c chars =>
    rw [hchars, List.flatMap_cons, hmark] at h
    rw [eq_of_utf8EncodeChar_append h, List.head?_cons]

theorem not_byteOrderMark_quoteCell (bytes rest : Bytes) :
    ¬ byteOrderMark <+: quoteCell bytes ++ rest :=
  fun h => absurd (List.cons_prefix_cons.mp h).1 (by decide)

/-- A byte that is no part of the mark ends what may be one. -/
theorem byteOrderMark_of_append {rest : Bytes} (hb : b ∉ byteOrderMark)
    (h : byteOrderMark <+: bytes ++ b :: rest) : byteOrderMark <+: bytes := by
  obtain ⟨tail, h⟩ := h
  obtain ⟨more, hbytes, -⟩ | ⟨more, hmark, htail⟩ := List.append_eq_append_iff.mp h
  · exact ⟨more, hbytes.symm⟩
  · cases more with
    | nil => exact ⟨[], by rw [hmark, List.append_nil, List.append_nil]⟩
    | cons b' more =>
      rw [(List.cons.inj htail).1, hmark] at hb
      exact absurd (List.mem_append_right _ (List.mem_cons_self ..)) hb

theorem not_byteOrderMark_writeCell {text : String} {rest : Bytes}
    (h : text.toList.head? ≠ some '\uFEFF') (hb : b ∉ byteOrderMark) :
    ¬ byteOrderMark <+: writeCell text ++ b :: rest := by
  intro hmark
  have hfront := byteOrderMark_of_append hb hmark
  obtain hwritten | ⟨hwritten, -⟩ := writeCell_cases text
  · rw [hwritten, ← List.append_nil (quoteCell _)] at hfront
    exact not_byteOrderMark_quoteCell _ _ hfront
  · rw [hwritten] at hfront
    exact h (head?_of_byteOrderMark hfront)

/-- Only a mark at the start of the first cell is taken for the mark of a file. -/
theorem not_byteOrderMark_writeRecords {first : List String} {others : List (List String)}
    (h : ∀ text, first.head? = some text → text.toList.head? ≠ some '\uFEFF') :
    ¬ byteOrderMark <+: writeRecords (first :: others) := by
  rw [writeRecords, List.flatMap_cons, writeRecord, List.append_assoc]
  cases first with
  | nil => exact not_byteOrderMark_quoteCell _ _
  | cons text texts =>
    split
    · exact not_byteOrderMark_quoteCell _ _
    · cases texts with
      | nil =>
        rw [List.map_singleton, List.intercalate_singleton]
        exact not_byteOrderMark_writeCell (h text rfl) (by decide)
      | cons other texts =>
        rw [List.map_cons, List.map_cons, List.intercalate_cons_cons, List.append_assoc,
          List.append_assoc]
        exact not_byteOrderMark_writeCell (h text rfl) (by decide)

end Csv

/--
Whatever texts the rows of a table hold, the table is read back as it was written: the first row as
headers, each other one as a record in its place, cell by cell and without the blanks at the ends of
cells. Only a row without cells comes back as one empty cell.
-/
theorem table_of_written_rows (first : List String) (others : List (List String))
    (hmark : ∀ cell, first.head? = some cell → cell.toList.head? ≠ some '\uFEFF') :
    let table := Csv.Table.ofBytes (Csv.writeRecords (first :: others))
    let readBack := fun (row : List String) => if row = [] then [""] else row.map Text.trim
    table.headers = .ok (readBack first) ∧
    table.records = others.map fun row => .ok (readBack row) := by
  intro table readBack
  have hread : ∀ row, (Csv.written row).map Text.trim = readBack row := by
    intro row
    by_cases hrow : row = []
    · subst hrow
      decide
    · rw [Csv.written_of_ne_nil hrow]
      exact (if_neg hrow).symm
  have htable : table = _ :=
    Csv.Table.ofBytes_writeRecords (Csv.not_byteOrderMark_writeRecords hmark)
  rw [htable]
  simp only [hread, and_self]

/-- Quotes, separators, line ends and blanks in cells, rows without and with one empty cell. -/
theorem table_of_written_rows_ragged :
    let rows := [["\r\n", " x\u3000", "\"q"], [], [""], ["1"]]
    (∀ cell, [" a,\"b\" ", ""].head? = some cell → cell.toList.head? ≠ some '\uFEFF') ∧
    (Csv.Table.ofBytes (Csv.writeRecords ([" a,\"b\" ", ""] :: rows))).headers
      = .ok ["a,\"b\"", ""] ∧
    (Csv.Table.ofBytes (Csv.writeRecords ([" a,\"b\" ", ""] :: rows))).records
      = [.ok ["", "x", "\"q"], .ok [""], .ok [""], .ok ["1"]] := by
  intro rows
  have hmark : ∀ cell, [" a,\"b\" ", ""].head? = some cell →
      cell.toList.head? ≠ some '\uFEFF' := by
    rintro cell hcell
    cases hcell
    decide
  obtain ⟨hheaders, hrecords⟩ := table_of_written_rows [" a,\"b\" ", ""] rows hmark
  refine ⟨hmark, hheaders.trans ?_, hrecords.trans ?_⟩
  · decide +kernel
  · decide +kernel

end ColumnCalc
