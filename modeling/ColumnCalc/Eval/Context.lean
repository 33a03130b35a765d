/-!
# What is known of a row

The values of a row are pairs of a column's name and a number; of several pairs with one name the
last one counts. A context holds a row's index and values, or only one of them, or neither.
-/

namespace ColumnCalc

/-- Names with their values, later pairs overriding earlier ones. -/
structure RowValues where
  pairs : List (String × Float)
  deriving DecidableEq

namespace RowValues

def empty : RowValues :=
  ⟨[]⟩

/-- The value of the last pair with the name. -/
def get? (values : RowValues) (name : String) : Option Float :=
  values.pairs.reverse.lookup name

/-- The names in the order of their code points, each with its value. -/
def sorted (values : RowValues) : List (String × Float) :=
  let names := (values.pairs.map (·.1)).mergeSort fun a b => decide (a ≤ b)
  names.eraseDups.filterMap fun name => (values.get? name).map fun value => (name, value)

end RowValues

/-- The part of a row that is known. -/
structure Context where
  index : Option Nat
  values : Option RowValues
  deriving DecidableEq

namespace Context

/-- Nothing is known. -/
def empty : Context :=
  ⟨none, none⟩

/-- Everything is known. -/
def full (index : Nat) (values : RowValues) : Context :=
  ⟨some index, some values⟩

/-- What the first context knows, and what the second one knows beyond it. -/
def orElse (a b : Context) : Context :=
  ⟨a.index <|> b.index, a.values <|> b.values⟩

end Context

end ColumnCalc
