import ColumnCalc.Eval.Symbols
import ColumnCalc.Number.Notation

/-!
# Pages of documentation

The pages that the command shows, and the names under which they are found.
-/

namespace ColumnCalc

namespace Docs

inductive Page where
  | syntaxRules
  | operators
  | functions
  | constants
  | transform
  deriving DecidableEq, Repr

/-- Each line with its end. -/
def lines (ls : List String) : String :=
  String.join (ls.map (· ++ "\n"))

/-- The list of pages. -/
def overview : String := lines [
  "CSVPLOT DOCUMENTATION",
  "",
  "csvplot derives new CSV columns from existing ones using small column",
  "expressions such as:",
  "",
  "  diff = $colA$ - $colB$ * sin(#)",
  "",
  "DOCUMENTATION CATEGORIES",
  "",
  "  syntax            Grammar of column expressions",
  "  operators         Binary operators and their precedence",
  "  functions         Built-in single-argument functions",
  "  constants         Named constants",
  "  transform         How expressions are applied to a CSV file",
  "",
  "QUICK REFERENCE",
  "",
  "  $name$            Value of column \"name\" in the current row",
  "  #                 Zero-based index of the current data row",
  "  name = expr       Output column \"name\" computed by expr",
  "",
  "Run 'csvplot doc <category>' for detailed documentation."]

def syntaxPage : String := lines [
  "SYNTAX",
  "",
  "  COL_EXPR      = [ IDENT '=' ] VALUE",
  "  VALUE1        = VALUE2 \x7b ('+'|'-') VALUE2 \x7d",
  "  VALUE2        = VALUE3 \x7b ('*'|'/') VALUE3 \x7d",
  "  VALUE3        = VALUE4 \x7b ('%'|'^') VALUE4 \x7d",
  "  VALUE4        = FUNCTION_CALL | COLUMN_REF | LITERAL | ROW_ID | '(' VALUE ')' | CONSTANT",
  "  FUNCTION_CALL = IDENT '(' VALUE ')'",
  "  COLUMN_REF    = '$' COL_NAME '$'",
  "  ROW_ID        = '#'",
  "  LITERAL       = ['+'|'-'] DIGITS ['.' DIGITS] ['e' ['+'|'-'] DIGITS]",
  "",
  "COLUMN REFERENCES",
  "  Everything between the dollar signs is the column name. Names may contain",
  "  letters, digits, underscores, parentheses and spaces:",
  "",
  "    $Signal (raw)$",
  "    $sin(x)$          the column named \"sin(x)\", not a function call",
  "",
  "LITERALS",
  "  42   -1.5   2.5e-3   +7",
  "",
  "  A sign belongs to the literal, so 1 - -2 is valid. There is no unary minus",
  "  for other values; write 0 - $a$ instead."]

def operatorsPage : String := lines [
  "OPERATORS",
  "",
  "  Loosest to tightest, every level left-associative:",
  "",
  "    +  -        addition, subtraction",
  "    *  /        multiplication, division",
  "    %  ^        modulo, power",
  "",
  "  So 2^3^2 is (2^3)^2 = 64 and 8 - 2 - 1 is 5.",
  "",
  "DIVISION BY ZERO",
  "  x / 0 and x % 0 yield nan instead of failing.",
  "",
  "MODULO",
  "  The result takes the sign of the divisor: -7 % 3 is 2."]

def functionsPage : String := lines ([
  "FUNCTIONS",
  "",
  "  Every function takes exactly one argument.",
  "",
  "    sin(x)  cos(x)  tan(x)     trigonometry in radians",
  "    sqrt(x)                    nan for x < 0",
  "    ln(x)   log(x)             natural logarithm, nan for x <= 0",
  "    lg(x)   log10(x)           base-10 logarithm, nan for x <= 0",
  "    lb(x)   log2(x)            base-2 logarithm, nan for x <= 0",
  "",
  "  Function names are case-sensitive. Calling an unknown function is an",
  "  error as soon as its argument is known."]
  ++ ["", "AVAILABLE", "  " ++ ", ".intercalate Symbols.functionNames])

/-- A constant's name, filled up to six characters, and its value. -/
def constantLine (constant : String × Float) : String :=
  "  " ++ constant.1 ++ .ofList (List.replicate (6 - constant.1.length) ' ')
    ++ .ofList (Number.plain constant.2)

def constantsPage : String := lines
  (["CONSTANTS", "", "  Names are case-insensitive: PI, Pi and pi are the same.", ""]
    ++ Symbols.constants.map constantLine)

def transformPage : String := lines [
  "TRANSFORM",
  "",
  "  csvplot transform data.csv -o out.csv -e 'diff = $a$ - $b$' -e 'n = # / 10'",
  "",
  "  Each expression must name its output column. Expressions that fail to",
  "  parse are skipped with a warning; the others are applied to every row.",
  "  Derived columns are appended in the order given.",
  "",
  "  Cells that are not numbers are read as nan. Referencing a column that",
  "  does not exist stops the run with an error.",
  "",
  "ROW SELECTION",
  "  --region START:END   process data rows START..END (END exclusive)",
  "  --divider N          only every Nth row",
  "",
  "WITHOUT INPUT",
  "  csvplot transform --rows 100 -o out.csv -e 'x = # * pi / 50' -e 'y = sin(# * pi / 50)'"]

namespace Page

/-- The names of a page. -/
def names : Page → List String
  | syntaxRules => ["syntax", "grammar"]
  | operators => ["operators", "ops"]
  | functions => ["functions", "function", "fns"]
  | constants => ["constants", "constant"]
  | transform => ["transform", "derive"]

def all : List Page :=
  [syntaxRules, operators, functions, constants, transform]

/-- The page with a name, in any case. -/
def ofName? (name : String) : Option Page :=
  all.find? fun page => Text.lower name ∈ page.names

def text : Page → String
  | syntaxRules => syntaxPage
  | operators => operatorsPage
  | functions => functionsPage
  | constants => constantsPage
  | transform => transformPage

end Page

end Docs

end ColumnCalc
