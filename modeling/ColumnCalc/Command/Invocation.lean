import ColumnCalc.Command.Options
import ColumnCalc.Rows.Range

/-!
# Command lines

The seven commands with their arguments, and how a list of arguments names one of them.
-/

namespace ColumnCalc

/-- How the rows of a command are chosen, as text. -/
structure RangeArguments where
  region : String
  divider : String
  deriving DecidableEq, Repr

structure TransformArguments where
  input : Option String
  output : Option String
  sources : List String
  sourceFile : Option String
  count : Option Nat
  derivedOnly : Bool
  range : RangeArguments
  deriving DecidableEq, Repr

inductive Invocation where
  | transform (arguments : TransformArguments)
  | headers (input : String)
  | metrics (input : String) (json pretty : Bool) (range : RangeArguments)
  | check (expression : String) (folded : Bool)
  | eval (expression : String) (index : Option Nat) (bindings : List String)
  | docs
  | doc (page : String)
  | version
  | help
  deriving DecidableEq, Repr

namespace Invocation

open Options

def anyText (_ : String) : Bool :=
  true

/-- File names are not empty. -/
def isFileName (s : String) : Bool :=
  !s.isEmpty

/-- A whole number that fits in 64 bits. -/
def isCount (s : String) : Bool :=
  (RowRange.count? s.toList).isSome

/-- The option that every command knows. -/
def verbose : OptionSpec :=
  ⟨"verbose", some 'v', .flag, anyText⟩

def rangeOptions : List OptionSpec :=
  [⟨"region", some 'r', .once true, anyText⟩, ⟨"divider", some 'd', .once false, anyText⟩]

def transformSpec : CommandSpec where
  options := [verbose, ⟨"output", some 'o', .once false, isFileName⟩,
    ⟨"expr", some 'e', .many, anyText⟩, ⟨"expr-file", none, .once false, isFileName⟩,
    ⟨"rows", none, .once false, isCount⟩, ⟨"derived-only", none, .flag, anyText⟩] ++ rangeOptions
  required := 0
  allowed := 1
  accepts := isFileName

def headersSpec : CommandSpec where
  options := [verbose]
  required := 1
  allowed := 1
  accepts := isFileName

def metricsSpec : CommandSpec where
  options := [verbose, ⟨"json", none, .flag, anyText⟩, ⟨"pretty", some 'p', .flag, anyText⟩]
    ++ rangeOptions
  required := 1
  allowed := 1
  accepts := isFileName

def checkSpec : CommandSpec where
  options := [verbose, ⟨"fold", none, .flag, anyText⟩]
  required := 1
  allowed := 1
  accepts := anyText

def evalSpec : CommandSpec where
  options := [verbose, ⟨"row", none, .once false, isCount⟩, ⟨"col", some 'c', .many, anyText⟩]
  required := 1
  allowed := 1
  accepts := anyText

def docsSpec : CommandSpec where
  options := [verbose]
  required := 0
  allowed := 0
  accepts := anyText

def docSpec : CommandSpec where
  options := [verbose]
  required := 1
  allowed := 1
  accepts := anyText

def commandNames : List String :=
  ["transform", "headers", "metrics", "check", "eval", "docs", "doc", "help"]

def count? (g : Given) (name : String) : Option Nat :=
  (g.value? name).bind fun s => RowRange.count? s.toList

def plain (g : Given) : String :=
  g.plain.headD ""

def rangeArguments (g : Given) : RangeArguments :=
  ⟨(g.value? "region").getD ":", (g.value? "divider").getD "1"⟩

/-- Help on all commands, or on one of them. -/
def helpOn (args : List String) : Except Stop Invocation :=
  match args with
  | [] => .ok help
  | [name] => if name ∈ commandNames then .ok help else .error .misuse
  | _ => .error .misuse

/-- The command with a name and the arguments behind it. -/
def ofCommand (name : String) (args : List String) : Except Stop Invocation := do
  let read := fun spec => collect spec .empty none args
  match name with
  | "transform" =>
    let g ← read transformSpec
    pure (transform ⟨g.plain.head?, g.value? "output", g.values "expr", g.value? "expr-file",
      count? g "rows", g.has "derived-only", rangeArguments g⟩)
  | "headers" =>
    let g ← read headersSpec
    pure (headers (plain g))
  | "metrics" =>
    let g ← read metricsSpec
    pure (metrics (plain g) (g.has "json") (g.has "pretty") (rangeArguments g))
  | "check" =>
    let g ← read checkSpec
    pure (check (plain g) (g.has "fold"))
  | "eval" =>
    let g ← read evalSpec
    pure (eval (plain g) (count? g "row") (g.values "col"))
  | "docs" =>
    let _ ← read docsSpec
    pure docs
  | "doc" =>
    let g ← read docSpec
    pure (doc (plain g))
  | "help" => helpOn args
  | _ => .error .misuse

/-- What the letters behind one dash ask for in front of the command. -/
def leadingLetters (verboseSeen : Bool) : List Char → Except (Except Stop Invocation) Bool
  | [] => .ok verboseSeen
  | 'v' :: r => if verboseSeen then .error (.error .misuse) else leadingLetters true r
  | 'V' :: _ => .error (.ok version)
  | 'h' :: _ => .error (.ok help)
  | _ => .error (.error .misuse)

/-- Reads the options in front of the command, then the command. -/
def leading (verboseSeen : Bool) : List String → Except Stop Invocation
  | [] => .error .misuse
  | arg :: args =>
    match arg.toList with
    | '-' :: '-' :: s =>
      match String.ofList s with
      | "version" => .ok version
      | "help" => .ok help
      | "verbose" => if verboseSeen then .error .misuse else leading true args
      | _ => .error .misuse
    | '-' :: c :: s =>
      match leadingLetters verboseSeen (c :: s) with
      | .ok seen => leading seen args
      | .error stop => stop
    | _ => ofCommand arg args

/-- The invocation that a list of arguments stands for, none if they are misused. -/
def ofArguments? (args : List String) : Option Invocation :=
  match leading false args with
  | .ok invocation => some invocation
  | .error .help => some help
  | .error .misuse => none

/-- The names of the files that an invocation can touch. -/
def fileNames : Invocation → List String
  | transform a => a.input.toList ++ a.output.toList ++ a.sourceFile.toList
  | headers input => [input]
  | metrics input _ _ _ => [input]
  | _ => []

/-- The names of the files that an invocation writes. -/
def outputNames : Invocation → List String
  | transform a => a.output.toList
  | _ => []

end Invocation

end ColumnCalc
