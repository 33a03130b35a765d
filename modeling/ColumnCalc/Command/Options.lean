/-!
# Reading options

A command line is read from left to right. An option is written `--name VALUE`, `--name=VALUE`,
`-n VALUE`, `-nVALUE` or `-n=VALUE`; letters of options without a value may stand behind one dash.
Behind `--` every argument is a plain one. An argument that starts with a dash is no value of the
option before it, unless the option allows that or the argument is a dash alone.
-/

namespace ColumnCalc

namespace Options

/-- What an option takes, and how often it may be given. -/
inductive Kind where
  /-- No value, once. -/
  | flag
  /-- A value, once; `dashed` if it may start with a dash. -/
  | once (dashed : Bool)
  /-- A value each time. -/
  | many
  deriving DecidableEq, Repr

structure OptionSpec where
  name : String
  letter : Option Char
  kind : Kind
  /-- The values that the option takes. -/
  accepts : String → Bool

/-- The arguments of a command: options, then plain arguments that must or may be given. -/
structure CommandSpec where
  options : List OptionSpec
  required : Nat
  allowed : Nat
  /-- The plain arguments that may be given. -/
  accepts : String → Bool

/-- Arguments as they were given: options by name, each with its value if it takes one. -/
structure Given where
  options : List (String × Option String)
  plain : List String
  deriving DecidableEq, Repr

/-- Why a command line is not run. -/
inductive Stop where
  /-- The arguments do not fit. -/
  | misuse
  /-- Help is asked for. -/
  | help
  deriving DecidableEq, Repr

namespace Given

def empty : Given :=
  ⟨[], []⟩

def has (g : Given) (name : String) : Bool :=
  g.options.any (·.1 == name)

/-- The values of an option, in the order in which they were given. -/
def values (g : Given) (name : String) : List String :=
  g.options.filterMap fun (n, value) => if n = name then value else none

def value? (g : Given) (name : String) : Option String :=
  (g.values name).head?

/-- One more use of an option. -/
def addOption (g : Given) (o : OptionSpec) (value : Option String) : Except Stop Given :=
  if o.kind ≠ .many && g.has o.name then .error .misuse
  else if value.all o.accepts then .ok { g with options := g.options ++ [(o.name, value)] }
  else .error .misuse

/-- One more plain argument. -/
def addPlain (spec : CommandSpec) (g : Given) (arg : String) : Except Stop Given :=
  if g.plain.length < spec.allowed && spec.accepts arg then
    .ok { g with plain := g.plain ++ [arg] }
  else .error .misuse

end Given

namespace CommandSpec

def named? (spec : CommandSpec) (name : String) : Option OptionSpec :=
  spec.options.find? (·.name == name)

def lettered? (spec : CommandSpec) (letter : Char) : Option OptionSpec :=
  spec.options.find? (·.letter == some letter)

end CommandSpec

/-- Whether an argument may be the value of the option before it. -/
def isValue (o : OptionSpec) (arg : String) : Bool :=
  o.kind = .once true || arg = "-" || !arg.toList.head?.any (· == '-')

/-- A value that is written to an option's letter, with or without `=`. -/
def attached (s : List Char) : String :=
  match s with
  | '=' :: r => .ofList r
  | r => .ofList r

/-- What an argument with dashes gives: an updated record, and an option still without its value. -/
abbrev Step := Except Stop (Given × Option OptionSpec)

/-- Letters of options behind one dash. -/
def letters (spec : CommandSpec) (g : Given) : List Char → Step
  | [] => .ok (g, none)
  | c :: r =>
    match spec.lettered? c with
    | none => .error (if c = 'h' then .help else .misuse)
    | some o =>
      if o.kind = .flag then do
        let g ← g.addOption o none
        letters spec g r
      else if r.isEmpty then .ok (g, some o)
      else do
        let g ← g.addOption o (some (attached r))
        pure (g, none)

/-- The name of an option behind two dashes, perhaps with `=` and a value. -/
def long (spec : CommandSpec) (g : Given) (s : List Char) : Step :=
  let name : String := .ofList (s.takeWhile (· != '='))
  let value : Option String :=
    match s.dropWhile (· != '=') with
    | [] => none
    | _ :: r => some (.ofList r)
  match spec.named? name, value with
  | none, none => .error (if name = "help" then .help else .misuse)
  | none, some _ => .error .misuse
  | some o, none =>
    if o.kind = .flag then do
      let g ← g.addOption o none
      pure (g, none)
    else .ok (g, some o)
  | some o, some value =>
    if o.kind = .flag then .error .misuse
    else do
      let g ← g.addOption o (some value)
      pure (g, none)

/-- An argument that may start with dashes; none if it is a plain one. -/
def dashed? (spec : CommandSpec) (g : Given) (arg : String) : Option Step :=
  match arg.toList with
  | '-' :: '-' :: s => some (long spec g s)
  | '-' :: c :: s => some (letters spec g (c :: s))
  | _ => none

/-- Reads arguments; `pending` is an option that still lacks its value. -/
def collect (spec : CommandSpec) (g : Given) (pending : Option OptionSpec) :
    List String → Except Stop Given
  | [] => if pending.isSome || g.plain.length < spec.required then .error .misuse else .ok g
  | arg :: args =>
    match pending with
    | some o =>
      if isValue o arg then do
        let g ← g.addOption o (some arg)
        collect spec g none args
      else .error .misuse
    | none =>
      if arg = "--" then do
        let g ← args.foldlM (Given.addPlain spec) g
        if g.plain.length < spec.required then .error .misuse else pure g
      else
        match dashed? spec g arg with
        | some step => do
          let (g, pending) ← step
          collect spec g pending args
        | none => do
          let g ← g.addPlain spec arg
          collect spec g none args

end Options

end ColumnCalc
