import ColumnCalc.Command.Run
import ColumnCalc.Proofs.Files.Directory
import ColumnCalc.Proofs.Results

/-!
# The output file of a transform

A transform first reads the file of its sources and its range and opens its input; a failure up to
that point changes no file (`Program.transform_of_unopened`). Then it opens the output, which
empties it, and every other check comes later: whether the sources make a deriver, whether they
define a column, whether a column needs cells that are not given, whether the input can be read at
all and has a header that is text. A run that ends at one of these leaves an empty output
(`output_of_headless_run`), and what the output held before is lost (`output_lost_of_headless_run`).
-/

namespace ColumnCalc

/-! ## Headers -/

namespace Command

/-- The errors that end a transform in front of its header. -/
inductive Headless (sources : List String) (table : Option Csv.Table) (count : Option Nat) :
    CommandError → Prop where
  | source {e : DeriveError} (hsources : Deriver.ofSources sources = .error e) :
    Headless sources table count (.derive e)
  | noColumns {d : Deriver} (hsources : Deriver.ofSources sources = .ok d)
      (hcolumns : d.columns = []) :
    Headless sources table count .noExpressions
  | noInput {d : Deriver} (hsources : Deriver.ofSources sources = .ok d) (hcolumns : d.columns ≠ [])
      (htable : table = none) (hcount : count = none) :
    Headless sources table count .noInput
  | reference {d : Deriver} {n : Nat} {column : DerivedColumn} {name : String}
      (hsources : Deriver.ofSources sources = .ok d) (hcolumns : d.columns ≠ [])
      (htable : table = none) (hcount : count = some n)
      (hreference : d.firstReference? = some (column, name)) :
    Headless sources table count (.derive (.row 0 column.name (.columnNotFound name)))
  /-- The headers are no text, or the input is a folder. -/
  | header {d : Deriver} {t : Csv.Table} {e : Csv.Error}
      (hsources : Deriver.ofSources sources = .ok d) (hcolumns : d.columns ≠ [])
      (htable : table = some t) (hheader : t.headers = .error e) :
    Headless sources table count (.derive (.csv e))

variable {sources : List String} {table : Option Csv.Table} {count : Option Nat}
  {options : TransformOptions}

/-- A transform that writes nothing has failed, and one that writes has begun with a header. -/
theorem transformTable_cases (sources : List String) (table : Option Csv.Table)
    (count : Option Nat) (options : TransformOptions) :
    (∃ e, Headless sources table count e ∧
      transformTable sources table count options = ⟨[], .error e⟩) ∨
    ∃ header rest,
      (transformTable sources table count options).output = Csv.writeRecord header ++ rest := by
  unfold transformTable
  cases hsources : Deriver.ofSources sources with
  | error e => exact .inl ⟨_, .source hsources, rfl⟩
  | ok d =>
    by_cases hcolumns : d.columns = []
    · refine .inl ⟨_, .noColumns hsources hcolumns, ?_⟩
      simp only [hcolumns, List.isEmpty_nil, if_true]
    · have hnonempty : d.columns.isEmpty = false := by simpa using hcolumns
      simp only [hnonempty, Bool.false_eq_true, if_false]
      cases table with
      | some t =>
        cases hheaders : t.headers with
        | error e =>
          refine .inl ⟨_, .header hsources hcolumns rfl hheaders, ?_⟩
          simp only [Deriver.transformTable, hheaders, transformTable.written]
          rfl
        | ok headers =>
          have houtput : (d.transformTable options t).output = Csv.writeRecord
              (options.kept headers ++ d.names) ++
                (d.transformFrom options headers 0 ⟨0, 0⟩ t.records).output := by
            simp only [Deriver.transformTable, hheaders, Derivation.behind]
          exact .inr ⟨_, _, houtput⟩
      | none =>
        cases count with
        | none => exact .inl ⟨_, .noInput hsources hcolumns rfl rfl, rfl⟩
        | some n =>
          cases hreference : d.firstReference? with
          | some p =>
            refine .inl ⟨_, .reference hsources hcolumns rfl rfl hreference, ?_⟩
            simp only [Deriver.generate, hreference, transformTable.written]
            rfl
          | none =>
            have houtput : (d.generate n).output =
                Csv.writeRecord d.names ++ (d.writeBareRows 0 n).1 := by
              simp only [Deriver.generate, hreference]
            exact .inr ⟨_, _, houtput⟩

/-- No header, then nothing at all: the transform has failed in front of it. -/
theorem headless_of_output (h : ∀ header rest,
    (transformTable sources table count options).output ≠ Csv.writeRecord header ++ rest) :
    ∃ e, Headless sources table count e ∧
      transformTable sources table count options = ⟨[], .error e⟩ :=
  (transformTable_cases sources table count options).resolve_right fun ⟨header, rest, houtput⟩ =>
    h header rest houtput

theorem file_of_sourceLines {bytes : Bytes} {e : CommandError} (h : sourceLines bytes = .error e) :
    ∃ fault, e = .file fault := by
  unfold sourceLines at h
  split at h
  · exact ⟨.notText, by cases h; rfl⟩
  · cases h

end Command

/-! ## Runs -/

namespace Program

variable {directory opened : Directory} {standardInput : Option Bytes} {a : TransformArguments}
  {name : String} {e : CommandError}

/-- What a transform writes once its output is open, or the error that keeps it from opening it. -/
def derived (directory : Directory) (standardInput : Option Bytes) (a : TransformArguments) :
    Except CommandError Command.Written := do
  let prepared ← prepare directory a
  let (opened, _) ← openOutput directory a.output
  pure (Command.transformTable prepared.sources (inputTable opened standardInput prepared.input)
    a.count prepared.options)

theorem openOutput_eq_ok {output : Option Nat}
    (h : openOutput directory (some name) = .ok (opened, output)) :
    ∃ number, output = some number ∧ directory.create name = .ok (opened, number) := by
  obtain ⟨⟨opened', number⟩, hcreate, h⟩ := bind_eq_ok_iff.mp h
  cases h
  exact ⟨number, rfl, mapError_eq_ok_iff.mp hcreate⟩

theorem file_of_openOutput {output : Option String} (h : openOutput directory output = .error e) :
    ∃ fault, e = .file fault := by
  cases output with
  | none => cases h
  | some name =>
    rcases bind_eq_error_iff.mp h with h | ⟨_, -, h⟩
    · obtain ⟨fault, -, rfl⟩ := mapError_eq_error_iff.mp h
      exact ⟨fault, rfl⟩
    · cases h

theorem file_of_openFile (h : openFile directory name = .error e) : ∃ fault, e = .file fault := by
  obtain ⟨fault, -, rfl⟩ := mapError_eq_error_iff.mp h
  exact ⟨fault, rfl⟩

theorem file_of_readFile (h : readFile directory name = .error e) : ∃ fault, e = .file fault := by
  rcases bind_eq_error_iff.mp h with h | ⟨handle, -, h⟩
  · exact file_of_openFile h
  · obtain ⟨fault, -, rfl⟩ := mapError_eq_error_iff.mp h
    exact ⟨fault, rfl⟩

theorem file_of_sources (h : sources directory a = .error e) : ∃ fault, e = .file fault := by
  unfold sources at h
  split at h
  · cases h
  · rcases bind_eq_error_iff.mp h with h | ⟨bytes, -, h⟩
    · exact file_of_readFile h
    · rcases bind_eq_error_iff.mp h with h | ⟨lines, -, h⟩
      · exact Command.file_of_sourceLines h
      · cases h

theorem file_of_openInput (h : openInput directory a = .error e) : ∃ fault, e = .file fault := by
  unfold openInput at h
  split at h
  · rcases bind_eq_error_iff.mp h with h | ⟨handle, -, h⟩
    · exact file_of_openFile h
    · cases h
  · cases h
  · cases h

/-- Files and the range are all that is looked at before the output is open. -/
theorem file_or_range_of_derived (h : derived directory standardInput a = .error e) :
    (∃ fault, e = .file fault) ∨ ∃ fault, e = .range fault := by
  rcases bind_eq_error_iff.mp h with h | ⟨prepared, -, h⟩
  · rcases bind_eq_error_iff.mp h with h | ⟨texts, -, h⟩
    · exact .inl (file_of_sources h)
    rcases bind_eq_error_iff.mp h with h | ⟨rows, -, h⟩
    · obtain ⟨fault, -, rfl⟩ := mapError_eq_error_iff.mp h
      exact .inr ⟨fault, rfl⟩
    rcases bind_eq_error_iff.mp h with h | ⟨input, -, h⟩
    · exact .inl (file_of_openInput h)
    · cases h
  rcases bind_eq_error_iff.mp h with h | ⟨opened, -, h⟩
  · exact .inl (file_of_openOutput h)
  · cases h

/-- A transform that cannot open its output changes no file. -/
theorem transform_of_unopened (h : derived directory standardInput a = .error e) :
    transform directory standardInput a = .failure directory [] e := by
  unfold transform
  rcases bind_eq_error_iff.mp h with h | ⟨prepared, hprepare, h⟩
  · simp only [h]
  rcases bind_eq_error_iff.mp h with h | ⟨opened, -, h⟩
  · simp only [hprepare, h]
  · cases h

/-- A transform that has opened its output leaves there what it derives, and nothing else. -/
theorem transform_of_opened {written : Command.Written} (houtput : a.output = some name)
    (h : derived directory standardInput a = .ok written) :
    ∃ prepared opened number, prepare directory a = .ok prepared ∧
      directory.create name = .ok (opened, number) ∧
      written = Command.transformTable prepared.sources
        (inputTable opened standardInput prepared.input) a.count prepared.options ∧
      (∀ summary, written.result = .ok summary →
        transform directory standardInput a = .success (opened.put number written.output) []) ∧
      (∀ e, written.result = .error e →
        transform directory standardInput a = .failure (opened.put number written.output) [] e) := by
  obtain ⟨prepared, hprepare, h⟩ := bind_eq_ok_iff.mp h
  obtain ⟨⟨opened, output⟩, hopen, h⟩ := bind_eq_ok_iff.mp h
  rw [houtput] at hopen
  obtain ⟨number, rfl, hcreate⟩ := openOutput_eq_ok hopen
  obtain rfl := Except.ok.inj h
  refine ⟨prepared, opened, number, hprepare, hcreate, rfl, fun summary hresult => ?_,
    fun e hresult => ?_⟩
  · simp only [transform, hprepare, houtput, hopen, hresult]
  · simp only [transform, hprepare, houtput, hopen, hresult]

theorem run_eq_transform {args : List String}
    (hargs : Invocation.ofArguments? args = some (.transform a)) :
    run directory standardInput args = transform directory standardInput a := by
  rw [run, hargs]
  rfl

end Program

section
variable {directory : Directory} {standardInput : Option Bytes} {args : List String}
  {a : TransformArguments} {name : String} {outcome : Outcome}

/--
A run that fails without a header keeps all files but its output. The output keeps its bytes if a
file or the range is at fault; it is empty afterwards in every other case, for which the reasons are
listed in `Command.Headless`.
-/
theorem output_of_headless_run
    (hargs : Invocation.ofArguments? args = some (.transform a)) (houtput : a.output = some name)
    (hheader : ∀ written header rest, Program.derived directory standardInput a = .ok written →
      written.output ≠ Csv.writeRecord header ++ rest)
    (hrun : Program.run directory standardInput args = outcome) :
    outcome.code = 1 ∧ Directory.SameBut name directory outcome.directory ∧
    (∀ e, Program.derived directory standardInput a = .error e →
      ((∃ fault, e = .file fault) ∨ ∃ fault, e = .range fault) ∧
      outcome = .failure directory [] e) ∧
    (∀ written, Program.derived directory standardInput a = .ok written →
      ∃ prepared opened number e, Program.prepare directory a = .ok prepared ∧
        directory.create name = .ok (opened, number) ∧ opened.get? name = some [] ∧
        Command.Headless prepared.sources
          (Program.inputTable opened standardInput prepared.input) a.count e ∧
        outcome = .failure opened [] e) ∧
    (outcome.directory.get? name = directory.get? name ↔
      (∃ e, Program.derived directory standardInput a = .error e) ∨
        directory.get? name = some []) := by
  have htransform := (Program.run_eq_transform hargs).symm.trans hrun
  cases hderived : Program.derived directory standardInput a with
  | error e =>
    obtain rfl := (Program.transform_of_unopened hderived).symm.trans htransform
    refine ⟨rfl, .refl name directory, ?_, by simp, by simp [Outcome.failure]⟩
    intro e' he
    obtain rfl := Except.error.inj he
    exact ⟨Program.file_or_range_of_derived hderived, rfl⟩
  | ok written =>
    obtain ⟨prepared, opened, number, hprepare, hcreate, rfl, -, hfailed⟩ :=
      Program.transform_of_opened houtput hderived
    obtain ⟨e, hheadless, hwritten⟩ :=
      Command.headless_of_output fun header rest => hheader _ header rest hderived
    obtain ⟨hname, hempty, hsame⟩ := Directory.create_eq_ok hcreate
    have hget : opened.get? name = some [] := by
      rw [← hempty, Directory.get?_put hname]
    rw [hwritten, hempty] at hfailed
    obtain rfl := (hfailed e rfl).symm.trans htransform
    refine ⟨rfl, hsame, by simp, ?_, ?_⟩
    · intro written _
      exact ⟨prepared, opened, number, e, hprepare, hcreate, hget, hheadless, rfl⟩
    · simp [Outcome.failure, hget, eq_comm]
end

/-- A region that is no region is noticed before the output is open. -/
theorem output_of_headless_run_bad_region :
    let before : Directory :=
      .ofFiles [("in.csv", Text.encode "a\n1\n"), ("out.csv", Text.encode "keep\n")]
    let args := ["transform", "in.csv", "--region", "5", "-e", "x = $a$", "-o", "./out.csv"]
    let a : TransformArguments :=
      ⟨some "in.csv", some "./out.csv", ["x = $a$"], none, none, false, ⟨"5", "1"⟩⟩
    Invocation.ofArguments? args = some (.transform a) ∧
    (Program.derived before none a).map (·.output) = .error (.range (.invalidRegion "5")) ∧
    (Program.run before none args).code = 1 ∧
    (Program.run before none args).directory.get? "./out.csv" = before.get? "./out.csv" := by
  intro before args a
  have hargs : Invocation.ofArguments? args = some (.transform a) := by decide +kernel
  have herror : (Program.derived before none a).map (·.output)
      = .error (.range (.invalidRegion "5")) := by decide +kernel
  cases hderived : Program.derived before none a with
  | ok written =>
    rw [hderived] at herror
    cases herror
  | error e =>
    obtain ⟨hcode, -, -, -, hkept⟩ := output_of_headless_run hargs rfl
      (fun written header rest h => by cases hderived.symm.trans h) rfl
    exact ⟨hargs, hderived ▸ herror, hcode, hkept.mpr (.inl ⟨e, hderived⟩)⟩

/-- A folder can be opened, and that it is no table is noticed when the output is empty. -/
example :
    let before : Directory :=
      .ofFiles [("sub/in.csv", Text.encode "a\n1\n"), ("out.csv", Text.encode "keep\n")]
    let outcome := Program.run before none
      ["transform", "sub", "-e", "x = #", "-o", "sub/../out.csv"]
    outcome.message = "CSV error: Is a directory (os error 21)\n" ∧
    outcome.directory.get? "out.csv" = some [] := by
  decide +kernel

/-- Rows without cells cannot give a column its cells, and the output is lost by then. -/
theorem output_lost_of_headless_run :
    let before : Directory := .ofFiles [("out.csv", Text.encode "keep\n")]
    let outcome := Program.run before none
      ["transform", "--rows", "3", "-e", "x = $a$", "-o", "out.csv"]
    outcome.code = 1 ∧ outcome.output = [] ∧
    before.get? "out.csv" = some (Text.encode "keep\n") ∧
    outcome.directory.get? "out.csv" = some [] := by
  decide +kernel

end ColumnCalc
