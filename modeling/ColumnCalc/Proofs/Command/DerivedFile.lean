import ColumnCalc.Proofs.Command.OutputFile

/-!
# The derived file of a transform

A transform of a file reads three things from the files it finds: the lines of its source file, the
bytes of its input, and whether the output can be made. The sources and the range are settled before
the output is open (`Program.prepare_eq_ok_iff`), the records are read afterwards. So a run that
succeeds leaves in its output what `Command.transform` makes of the bytes that the input had, unless
both names stand for one file: opening has emptied it then, and what is left is the header of the
derived columns (`output_of_successful_run`, `input_lost_of_run_in_place`).
-/

namespace ColumnCalc

/-! ## Source files -/

section
variable {α : Type} [DecidableEq α] {a : α} {l piece : List α}

/-- What a list is split at is in none of the pieces. -/
theorem not_mem_of_mem_splitOn (h : piece ∈ l.splitOn a) : a ∉ piece := by
  induction l generalizing piece with
  | nil =>
    rw [List.splitOn_nil, List.mem_singleton] at h
    simp [h]
  | cons b l ih =>
    rw [List.splitOn_eq_splitOnP, List.splitOnP_cons_eq_if_modifyHead,
      ← List.splitOn_eq_splitOnP] at h
    obtain ⟨first, others, hsplit⟩ := List.exists_cons_of_ne_nil (List.splitOn_ne_nil a l)
    rw [hsplit] at h ih
    by_cases hb : b = a
    · rw [if_pos (by simpa using hb)] at h
      rcases List.mem_cons.mp h with rfl | h
      · exact List.not_mem_nil
      · exact ih h
    · rw [if_neg (by simpa using hb), List.modifyHead_cons] at h
      rcases List.mem_cons.mp h with rfl | h
      · exact List.not_mem_cons_of_ne_of_not_mem (Ne.symm hb) (ih (.head _))
      · exact ih (.tail _ h)

end

namespace Text

/-- The lines of a text: no line goes on behind a line end, and joined they are the text. -/
structure IsLines (lines : List (List Char)) (text : String) : Prop where
  whole : ∀ line ∈ lines, '\n' ∉ line
  joined : ['\n'].intercalate lines = text.toList

theorem isLines_splitOn (text : String) : IsLines (text.toList.splitOn '\n') text :=
  ⟨fun _ => not_mem_of_mem_splitOn, List.intercalate_splitOn '\n'⟩

theorem IsLines.splitOn_eq {lines : List (List Char)} {text : String} (h : IsLines lines text)
    (hne : lines ≠ []) : text.toList.splitOn '\n' = lines := by
  rw [← h.joined]
  exact List.splitOn_intercalate '\n' h.whole hne

/-- Lines without their outer blanks; blank lines are left out. -/
def trimLines (lines : List (List Char)) : List String :=
  ((lines.map trimList).filter (!·.isEmpty)).map .ofList

end Text

namespace Command

/-- A source file is a text, and its lines are the sources. -/
theorem sourceLines_eq_ok_iff {bytes : Bytes} {sources : List String} :
    sourceLines bytes = .ok sources ↔ ∃ text lines,
      bytes = Text.encode text ∧ Text.IsLines lines text ∧ sources = Text.trimLines lines := by
  have hlines : ∀ text : String, sourceLines (Text.encode text) =
      .ok (Text.trimLines (text.toList.splitOn '\n')) := by
    intro text
    simp only [sourceLines, Text.decode?_eq_some_iff.mpr rfl, Text.trimLines]
  constructor
  · intro h
    cases hdecode : Text.decode? bytes with
    | none => simp [sourceLines, hdecode] at h
    | some text =>
      obtain rfl := Text.decode?_eq_some_iff.mp hdecode
      obtain rfl := Except.ok.inj ((hlines text).symm.trans h)
      exact ⟨text, _, rfl, Text.isLines_splitOn text, rfl⟩
  · rintro ⟨text, lines, rfl, h, rfl⟩
    rw [hlines]
    by_cases hne : lines = []
    · -- The empty text is no line joined, and it is one empty line.
      have htext : text.toList = [] := by simpa [hne] using h.joined.symm
      rw [htext, hne]
      rfl
    · rw [h.splitOn_eq hne]

end Command

namespace Program

variable {directory : Directory} {a : TransformArguments} {sources : List String}
  {prepared : Prepared} {name : String}

/-- The sources of a transform: those of the arguments, then the lines of the source file. -/
inductive Combined (directory : Directory) (a : TransformArguments) : List String → Prop where
  | arguments (hfile : a.sourceFile = none) : Combined directory a a.sources
  | file {name text : String} {lines : List (List Char)} (hfile : a.sourceFile = some name)
      (hbytes : directory.get? name = some (Text.encode text)) (hlines : Text.IsLines lines text) :
      Combined directory a (a.sources ++ Text.trimLines lines)

theorem find?_of_openFile {handle : Handle} (h : openFile directory name = .ok handle) :
    directory.find? name = some handle :=
  Directory.openRead_eq_ok (mapError_eq_ok_iff.mp h)

theorem get?_of_readFile {bytes : Bytes} (h : readFile directory name = .ok bytes) :
    directory.get? name = some bytes := by
  obtain ⟨handle, hopen, h⟩ := bind_eq_ok_iff.mp h
  have hread := mapError_eq_ok_iff.mp h
  cases handle with
  | folder => cases hread
  | file number =>
    exact Directory.get?_eq_some_iff.mpr ⟨number, find?_of_openFile hopen, Except.ok.inj hread⟩

theorem combined_of_sources (h : Program.sources directory a = .ok sources) :
    Combined directory a sources := by
  unfold Program.sources at h
  split at h
  · next hfile =>
    obtain rfl := Except.ok.inj h
    exact .arguments hfile
  · next hfile =>
    obtain ⟨bytes, hbytes, h⟩ := bind_eq_ok_iff.mp h
    obtain ⟨lines, hlines, h⟩ := bind_eq_ok_iff.mp h
    obtain ⟨text, lines, rfl, htext, rfl⟩ := Command.sourceLines_eq_ok_iff.mp hlines
    obtain rfl := Except.ok.inj h
    exact .file hfile (get?_of_readFile hbytes) htext

/-- What a transform of a file has settled when it opens its output. -/
theorem prepare_eq_ok (hinput : a.input = some name) (h : prepare directory a = .ok prepared) :
    Combined directory a prepared.sources ∧
      RowRange.parse a.range.region a.range.divider = .ok prepared.options.range ∧
      prepared.options.derivedOnly = a.derivedOnly ∧
      ∃ handle, prepared.input = .file handle ∧ directory.find? name = some handle := by
  obtain ⟨texts, htexts, h⟩ := bind_eq_ok_iff.mp h
  obtain ⟨rows, hrows, h⟩ := bind_eq_ok_iff.mp h
  obtain ⟨input, hopened, h⟩ := bind_eq_ok_iff.mp h
  cases h
  rw [openInput, hinput] at hopened
  obtain ⟨handle, hhandle, hopened⟩ := bind_eq_ok_iff.mp hopened
  cases hopened
  exact ⟨combined_of_sources htexts, mapError_eq_ok_iff.mp hrows, rfl, handle, rfl,
    find?_of_openFile hhandle⟩

end Program

/-! ## Tables -/

/-- Without a table there are no rows, and a header of the derived columns only. -/
theorem Deriver.transform_nil (d : Deriver) (options : TransformOptions) :
    d.transform options [] = ⟨Csv.writeRecord d.names, .ok ⟨0, 0⟩⟩ := by
  have hkept : options.kept [] = [] := by
    simp [TransformOptions.kept]
  have htable : Csv.Table.ofBytes [] = ⟨.ok [], []⟩ := rfl
  simp only [transform, transformTable, htable, transformFrom, Derivation.behind, hkept,
    List.nil_append, List.append_nil]

/-- A transform of a table that succeeds has columns and writes what they make of the table. -/
theorem Command.transformTable_eq_ok {sources : List String} {table : Csv.Table} {content : Bytes}
    {count : Option Nat} {options : TransformOptions} {summary : Summary}
    (h : transformTable sources (some table) count options = ⟨content, .ok summary⟩) :
    ∃ d, Deriver.ofSources sources = .ok d ∧
      d.transformTable options table = ⟨content, .ok summary⟩ := by
  unfold transformTable at h
  split at h
  · cases h
  · next d hsources =>
    split at h
    · cases h
    · refine ⟨d, hsources, ?_⟩
      rcases hderived : d.transformTable options table with ⟨output, result⟩
      simp only [hderived, transformTable.written] at h
      injection h with houtput hresult
      rw [houtput, mapError_eq_ok_iff.mp hresult]

/-- A folder has no headers to begin with, so what a transform has succeeded on is a file. -/
theorem Program.exists_file_of_transformTable {directory : Directory} {handle : Handle}
    {sources : List String} {content : Bytes} {count : Option Nat} {options : TransformOptions}
    {summary : Summary} (h : Command.transformTable sources (some (table directory handle)) count
      options = ⟨content, .ok summary⟩) :
    ∃ number, handle = .file number ∧
      Command.transform sources (some (directory.bytes number)) count options =
        ⟨content, .ok summary⟩ := by
  cases handle with
  | folder =>
    obtain ⟨d, -, hderive⟩ := Command.transformTable_eq_ok h
    cases congrArg Derivation.result hderive
  | file number => exact ⟨number, rfl, h⟩

/-! ## Runs -/

section
variable {directory : Directory} {standardInput : Option Bytes} {args : List String}
  {a : TransformArguments} {source target : String} {outcome : Outcome}

/--
A run that succeeds changes no file but its output. If its input is another file, the output is what
the sources, the range and the layout make of the bytes that the input had; if it is the same file,
under whatever name, the output is what they make of no bytes, a header without rows.
-/
theorem output_of_successful_run
    (hargs : Invocation.ofArguments? args = some (.transform a)) (hinput : a.input = some source)
    (houtput : a.output = some target)
    (hrun : Program.run directory standardInput args = outcome) (hcode : outcome.code = 0) :
    ∃ sources options bytes content, Program.Combined directory a sources ∧
      RowRange.parse a.range.region a.range.divider = .ok options.range ∧
      options.derivedOnly = a.derivedOnly ∧
      directory.get? source = some bytes ∧
      outcome.output = [] ∧ outcome.directory.get? target = some content ∧
      Directory.SameBut target directory outcome.directory ∧
      (directory.find? source ≠ directory.find? target →
        outcome.directory.get? source = some bytes ∧ ∃ summary,
          Command.transform sources (some bytes) a.count options = ⟨content, .ok summary⟩) ∧
      (directory.find? source = directory.find? target →
        ∃ d, Deriver.ofSources sources = .ok d ∧ content = Csv.writeRecord d.names) := by
  have htransform := (Program.run_eq_transform hargs).symm.trans hrun
  cases hderived : Program.derived directory standardInput a with
  | error e =>
    obtain rfl := (Program.transform_of_unopened hderived).symm.trans htransform
    cases hcode
  | ok written =>
    obtain ⟨prepared, opened, number, hprepare, hcreate, hwritten, hsucceeded, hfailed⟩ :=
      Program.transform_of_opened houtput hderived
    obtain ⟨hsources, hrange, hlayout, handle, hfile, hhandle⟩ :=
      Program.prepare_eq_ok hinput hprepare
    obtain ⟨hname, hempty, hsame⟩ := Directory.create_eq_ok hcreate
    cases hresult : written.result with
    | error e =>
      obtain rfl := (hfailed e hresult).symm.trans htransform
      cases hcode
    | ok summary =>
      obtain rfl := (hsucceeded summary hresult).symm.trans htransform
      have hread : Command.transformTable prepared.sources
          (some (Program.table opened handle)) a.count prepared.options =
            ⟨written.output, .ok summary⟩ := by
        rw [← hresult, hwritten, hfile]
        rfl
      obtain ⟨n, rfl, hderive⟩ := Program.exists_file_of_transformTable hread
      have hsource : directory.get? source = some (directory.bytes n) :=
        Directory.get?_eq_some_iff.mpr ⟨n, hhandle, rfl⟩
      have hafter := hsame.put hname written.output
      refine ⟨prepared.sources, prepared.options, directory.bytes n, written.output, hsources,
        hrange, hlayout, hsource, rfl, Directory.get?_put hname _, hafter, fun hne => ?_,
        fun heq => ?_⟩
      · have hapart := mt (hsame.find?_eq_iff hhandle).mp hne
        refine ⟨(hafter.get?_eq hapart).trans hsource, summary, ?_⟩
        rwa [hsame.bytes_eq hhandle hne] at hderive
      · have hnumber := (hsame.find?_eq_iff hhandle).mpr heq
        rw [hsame.kept hhandle, hname] at hnumber
        obtain rfl : n = number := by simpa using hnumber
        have hnil : opened.bytes n = [] := by rw [← hempty, Directory.bytes_put]
        rw [hnil] at hderive
        obtain ⟨d, hd, hderive⟩ := Command.transformTable_eq_ok hderive
        injection (Deriver.transform_nil d prepared.options).symm.trans hderive with hcontent
        exact ⟨d, hd, hcontent.symm⟩
end

/-- Sources of both kinds, and an output that has been there before. -/
theorem output_of_successful_run_source_file :
    let before : Directory := .ofFiles [("in.csv", Text.encode "a\n1\n"),
      ("more.txt", Text.encode "\n y = # \r\n"), ("out.csv", Text.encode "keep\n")]
    let args := ["transform", "in.csv", "-e", "x = $a$ + 1", "--expr-file", "more.txt",
      "-o", "out.csv"]
    let a : TransformArguments := ⟨some "in.csv", some "out.csv", ["x = $a$ + 1"],
      some "more.txt", none, false, ⟨":", "1"⟩⟩
    let outcome := Program.run before none args
    Invocation.ofArguments? args = some (.transform a) ∧ outcome.code = 0 ∧
    before.find? "in.csv" ≠ before.find? "out.csv" ∧
    outcome.directory.get? "in.csv" = some (Text.encode "a\n1\n") ∧
    outcome.directory.get? "out.csv" = some (Text.encode "a,x,y\n1,2,0\n") := by
  intro before args a outcome
  have hargs : Invocation.ofArguments? args = some (.transform a) := by decide +kernel
  have hcode : outcome.code = 0 := by decide +kernel
  have hne : before.find? "in.csv" ≠ before.find? "out.csv" := by decide +kernel
  obtain ⟨sources, options, bytes, content, -, -, -, hbytes, -, -, -, hapart, -⟩ :=
    output_of_successful_run hargs rfl rfl rfl hcode
  have hkept : before.get? "in.csv" = some (Text.encode "a\n1\n") := by decide +kernel
  refine ⟨hargs, hcode, hne, ?_, by decide +kernel⟩
  rw [(hapart hne).1, ← hbytes, hkept]

/-- Another spelling of the input's name does not keep its records. -/
example :
    let before : Directory :=
      .ofFiles [("in.csv", Text.encode "a\n1\n"), ("sub/out.csv", Text.encode "keep\n")]
    let outcome := Program.run before none
      ["transform", "./in.csv", "-e", "x = $a$ + 1", "-o", "sub/../in.csv"]
    before.find? "./in.csv" = before.find? "sub/../in.csv" ∧
    outcome.code = 0 ∧ outcome.directory.get? "in.csv" = some (Text.encode "x\n") := by
  decide +kernel

/-- A run whose output is its input ends well, and the records are gone. -/
theorem input_lost_of_run_in_place :
    let before : Directory := .ofFiles [("in.csv", Text.encode "a\n1\n")]
    let args := ["transform", "in.csv", "-e", "x = $a$ + 1", "-o", "in.csv"]
    let outcome := Program.run before none args
    let expected := Command.transform ["x = $a$ + 1"] (before.get? "in.csv") none ⟨.all, false⟩
    Invocation.ofArguments? args = some (.transform ⟨some "in.csv", some "in.csv",
      ["x = $a$ + 1"], none, none, false, ⟨":", "1"⟩⟩) ∧
    (RowRange.parse ":" "1").toOption = some .all ∧
    outcome.code = 0 ∧ outcome.directory.get? "in.csv" = some (Text.encode "x\n") ∧
    expected.output = Text.encode "a,x\n1,2\n" ∧ expected.result.toOption = some ⟨1, 1⟩ := by
  decide +kernel

end ColumnCalc
