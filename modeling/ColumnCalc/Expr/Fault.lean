import ColumnCalc.Text.Quoted

/-!
# Parse errors

A fault is what was missing and the text that stood in its place. A parse error is a fault with the
faults that led to it, outermost first.
-/

namespace ColumnCalc

/-- The digits that a literal lacks. -/
inductive LiteralPart where
  | whole
  | fraction
  | exponent
  deriving DecidableEq, Repr

inductive FaultKind where
  /-- No form of operand matches. -/
  | noAlternative
  /-- A whole expression was read and something follows it. -/
  | trailingInput
  | literal (missing : LiteralPart)
  | identifier
  | columnName
  | expected (c : Char)
  deriving DecidableEq, Repr

structure Fault where
  kind : FaultKind
  rest : List Char
  deriving DecidableEq, Repr

/-- A fault and the chain of faults behind it. -/
structure ParseError extends Fault where
  causes : List Fault
  deriving DecidableEq, Repr

namespace LiteralPart

def message : LiteralPart → String
  | whole => "expected digits"
  | fraction => "expected digits after '.'"
  | exponent => "expected digits in exponent"

end LiteralPart

namespace FaultKind

def message : FaultKind → String
  | noAlternative => "no alternative matched a value"
  | trailingInput => "expression did not consume the whole input"
  | literal missing => "malformed literal: " ++ missing.message
  | identifier => "malformed identifier: expected a letter or an underscore"
  | columnName =>
    "malformed column name: expected a letter, digit, underscore or parenthesis"
  | expected c => "expected '" ++ c.toString ++ "'"

end FaultKind

namespace Fault

/-- The text that was not read. -/
def remaining (f : Fault) : String :=
  .ofList f.rest

end Fault

namespace ParseError

/-- An error with no cause. -/
def single (kind : FaultKind) (rest : List Char) : ParseError :=
  ⟨⟨kind, rest⟩, []⟩

/-- The error's fault followed by its causes. -/
def chain (e : ParseError) : List Fault :=
  e.toFault :: e.causes

/-- The last fault of the chain. -/
def innermost (e : ParseError) : Fault :=
  e.causes.getLastD e.toFault

/-- The message of the outermost fault and the text that it stands before. -/
def message (e : ParseError) : String :=
  e.kind.message ++ " (remaining input: " ++ Text.quoted e.remaining ++ ")"

/--
The error where no form of operand matches. Its cause is the failure that got furthest, if that one
got past the first character.
-/
def noAlternative (s : List Char) (furthest : Option ParseError) : ParseError :=
  match furthest with
  | none => single .noAlternative s
  | some e => ⟨⟨.noAlternative, s⟩, if e.rest.length < s.length then e.chain else []⟩

/-- The failure that got further, the first one if they got equally far. -/
def further (furthest : Option ParseError) (e : ParseError) : ParseError :=
  match furthest with
  | none => e
  | some f => if e.rest.length < f.rest.length then e else f

end ParseError

end ColumnCalc
