import ColumnCalc.Command.Commands
import ColumnCalc.Command.Invocation

/-!
# Running the program

A run takes the files it can reach, its standard input and its arguments to an outcome: an exit
code, what was written to both standard streams, and the files afterwards.
-/

namespace ColumnCalc

structure Outcome where
  code : Nat
  output : Bytes
  /-- The line of an error. -/
  message : String
  directory : Directory
  deriving DecidableEq, Repr

namespace Outcome

/-- A run that ends well. -/
def success (directory : Directory) (output : Bytes) : Outcome :=
  ⟨0, output, "", directory⟩

/-- A run that ends with an error. -/
def failure (directory : Directory) (output : Bytes) (error : CommandError) : Outcome :=
  ⟨1, output, error.message ++ "\n", directory⟩

/-- A run that writes a text or ends with an error, and leaves the files alone. -/
def ofText (directory : Directory) : Except CommandError String → Outcome
  | .ok text => success directory (Text.encode text)
  | .error error => failure directory [] error

end Outcome

namespace Program

def versionLine : String :=
  "csvplot 0.2.0\n"

def openFile (directory : Directory) (name : String) : Except CommandError Handle :=
  (directory.openRead name).mapError .file

/-- All the bytes of a file. -/
def readFile (directory : Directory) (name : String) : Except CommandError Bytes := do
  let handle ← openFile directory name
  (directory.read handle).mapError .file

def range (a : RangeArguments) : Except CommandError RowRange :=
  (RowRange.parse a.region a.divider).mapError .range

/-- All sources of a transform: those in the arguments, then those in the file. -/
def sources (directory : Directory) (a : TransformArguments) :
    Except CommandError (List String) :=
  match a.sourceFile with
  | none => .ok a.sources
  | some name => do
    let bytes ← readFile directory name
    let lines ← Command.sourceLines bytes
    pure (a.sources ++ lines)

/-- Where a transform takes its records from, once that is open. -/
inductive Input where
  | file (handle : Handle)
  | standardInput
  | nothing
  deriving DecidableEq, Repr

/-- A file comes first; standard input is read only if no number of rows is given. -/
def openInput (directory : Directory) (a : TransformArguments) : Except CommandError Input :=
  match a.input, a.count with
  | some name, _ => do
    let handle ← openFile directory name
    pure (.file handle)
  | none, none => .ok .standardInput
  | none, some _ => .ok .nothing

/-- What a transform has settled before it opens its output. -/
structure Prepared where
  sources : List String
  options : TransformOptions
  input : Input

def prepare (directory : Directory) (a : TransformArguments) : Except CommandError Prepared := do
  let sources ← sources directory a
  let range ← range a.range
  let input ← openInput directory a
  pure ⟨sources, ⟨range, a.derivedOnly⟩, input⟩

/-- The table in what is open. A folder has none. -/
def table (directory : Directory) (handle : Handle) : Csv.Table :=
  match directory.read handle with
  | .ok bytes => .ofBytes bytes
  | .error error => .unreadable error

/-- The records of a transform, read when the output is already open. -/
def inputTable (directory : Directory) (standardInput : Option Bytes) : Input → Option Csv.Table
  | .file handle => some (table directory handle)
  | .standardInput => standardInput.map .ofBytes
  | .nothing => none

/-- Opening the output empties it, before the input is read. -/
def openOutput (directory : Directory) :
    Option String → Except CommandError (Directory × Option Nat)
  | none => .ok (directory, none)
  | some name => do
    let (opened, number) ← (directory.create name).mapError .file
    pure (opened, some number)

def transform (directory : Directory) (standardInput : Option Bytes) (a : TransformArguments) :
    Outcome :=
  match prepare directory a with
  | .error error => .failure directory [] error
  | .ok prepared =>
    match openOutput directory a.output with
    | .error error => .failure directory [] error
    | .ok (opened, output) =>
      let input := inputTable opened standardInput prepared.input
      let written := Command.transformTable prepared.sources input a.count prepared.options
      let (directory, text) :=
        match output with
        | some number => (opened.put number written.output, [])
        | none => (opened, written.output)
      match written.result with
      | .ok _ => .success directory text
      | .error error => .failure directory text error

/-- The bytes of a table. That they cannot be read is noticed by the reader of the table. -/
def readTable (directory : Directory) (name : String) : Except CommandError Bytes := do
  let handle ← openFile directory name
  (directory.read handle).mapError fun error => .csv (.unreadable error)

def metrics (directory : Directory) (input : String) (json pretty : Bool) (a : RangeArguments) :
    Except CommandError String := do
  let range ← range a
  let bytes ← readTable directory input
  let layout := if pretty then Json.Layout.indented else .compact
  Command.metrics bytes range (if json then some layout else none)

def eval (expression : String) (index : Option Nat) (bindings : List String) :
    Except CommandError String := do
  let value ← Command.evaluate expression index bindings
  pure (Command.showValue value ++ "\n")

def invoke (directory : Directory) (standardInput : Option Bytes) : Invocation → Outcome
  | .transform a => transform directory standardInput a
  | .headers input => .ofText directory do
    let bytes ← readTable directory input
    Command.headers bytes
  | .metrics input json pretty a => .ofText directory (metrics directory input json pretty a)
  | .check expression folded => .ofText directory (Command.check expression folded)
  | .eval expression index bindings => .ofText directory (eval expression index bindings)
  | .docs => .ofText directory (.ok Docs.overview)
  | .doc page => .ofText directory (Command.page page)
  | .version => .ofText directory (.ok versionLine)
  | .help => .ofText directory (.ok Docs.overview)

/--
The outcome of a run; misused arguments end it with exit code 2. Standard input is a pipe, or none
if it is a terminal.
-/
def run (directory : Directory) (standardInput : Option Bytes) (args : List String) : Outcome :=
  match Invocation.ofArguments? args with
  | none => ⟨2, [], "csvplot: the arguments do not fit; see 'csvplot docs'\n", directory⟩
  | some invocation => invoke directory standardInput invocation

end Program

end ColumnCalc
