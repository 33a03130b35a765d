import ColumnCalc.Expr.Basic
import ColumnCalc.Proofs.Expr.Reading
import ColumnCalc.Proofs.Number.Spelling

/-!
# Written expressions read back

The text of a tree whose names and operators belong to the language is an expression of the tree's
own level (`isValue_chars`): parentheses stand wherever an operand would otherwise be taken apart.
So it reads back as the same tree, in which only the literals are read anew (`Expr.reread`).
-/

namespace ColumnCalc

open Grammar

/-! ## What comes back -/

/-- The parts of the literal that a finite number is written as. -/
def Number.spelled (x : Float) : Literal :=
  match Literal.parse (literal x) with
  | .ok p => p.value
  | .error _ => ⟨false, [], [], false, []⟩

/-- A number read back; in an expression the infinities and `nan` have no literals. -/
def Number.reread (x : Float) : Expr :=
  if x.isNaN then .constant "nan"
  else if x.isInf then
    if isNegative x then .binary (.literal 0.0) '-' (.constant "inf") else .constant "inf"
  else .literal (spelled x).value

namespace Expr

/-- The tree with its literals read back and its columns under other names. -/
def rereadWith (rename : String → String) : Expr → Expr
  | literal v => Number.reread v
  | column name => column (rename name)
  | row => row
  | constant name => constant name
  | call function argument => call function (argument.rereadWith rename)
  | binary left op right => binary (left.rereadWith rename) op (right.rereadWith rename)

/-- The tree with its literals read back and everything else as it is. -/
def reread (e : Expr) : Expr :=
  e.rereadWith id

/-- The operators and the names but those of columns are the language's; the numbers are any. -/
def Spells (isName : List Char → Prop) : Expr → Prop
  | literal _ => True
  | column name => isName name.toList
  | row => True
  | constant name => IsIdentifier name.toList
  | call function argument => IsIdentifier function.toList ∧ argument.Spells isName
  | binary left op right => (Level.of? op).isSome ∧ left.Spells isName ∧ right.Spells isName

/-- The names and the operators are those of the language; the numbers are any. -/
def IsSpellable (e : Expr) : Prop :=
  e.Spells IsColumnName

end Expr

namespace Formula

def reread (f : Formula) : Formula :=
  ⟨f.target, f.value.reread⟩

def IsSpellable (f : Formula) : Prop :=
  (∀ name ∈ f.target, IsIdentifier name.toList) ∧ f.value.IsSpellable

end Formula

/-! ## Numbers -/

theorem spelled_eq {x : Float} {l : Literal} (h : IsLiteral (Number.literal x) l) :
    Number.spelled x = l := by
  have hreads := reads_literal h .nil
  rw [List.append_nil] at hreads
  obtain ⟨_, hread⟩ := hreads
  simp only [Number.spelled, hread]

theorem isLiteral_spelled {x : Float} (hnan : x.isNaN = false) (hinf : x.isInf = false) :
    IsLiteral (Number.literal x) (Number.spelled x) := by
  obtain ⟨l, hl⟩ := Number.exists_isLiteral_literal hnan hinf
  rw [spelled_eq hl]
  exact hl

/-! ## Levels -/

section
variable {level : Option Level} {own : Level} {s : List Char} {e : Expr}

/-- An expression of a level is one of each looser level. -/
theorem isValue_looser (h : IsValue level s e) (hl : ∀ l ∈ level, own.rank ≤ l.rank) :
    IsValue (some own) s e := by
  cases level with
  | none =>
    cases own with
    | additive => exact .lift (.lift (.lift h))
    | multiplicative => exact .lift (.lift h)
    | exponential => exact .lift h
  | some l =>
    have hrank := hl l rfl
    cases l with
    | additive =>
      cases own with
      | additive => exact h
      | multiplicative => exact absurd hrank (by decide)
      | exponential => exact absurd hrank (by decide)
    | multiplicative =>
      cases own with
      | additive => exact .lift h
      | multiplicative => exact h
      | exponential => exact absurd hrank (by decide)
    | exponential =>
      cases own with
      | additive => exact .lift (.lift h)
      | multiplicative => exact .lift h
      | exponential => exact h

/-- An expression of a tighter level is an operand of the level. -/
theorem isValue_tighter (h : IsValue level s e) (hl : ∀ l ∈ level, own.rank < l.rank) :
    IsValue own.tighter s e := by
  cases own with
  | additive =>
    show IsValue (some .multiplicative) s e
    exact isValue_looser h hl
  | multiplicative =>
    show IsValue (some .exponential) s e
    exact isValue_looser h hl
  | exponential =>
    cases level with
    | none => exact h
    | some l =>
      have hrank := hl l rfl
      cases l <;> exact absurd hrank (by decide)

theorem isValue_of_operand (h : IsValue none s e) : IsValue level s e := by
  cases level with
  | none => exact h
  | some own =>
    refine isValue_looser h fun l hl => ?_
    cases hl

theorem isValue_additive (h : IsValue level s e) : IsValue (some .additive) s e :=
  isValue_looser h fun _ _ => Nat.zero_le _

/-- In parentheses an expression of any level is an operand. -/
theorem isValue_parens {needed : Bool} {outer : Option Level} (h : IsValue level s e)
    (hbare : needed = false → IsValue outer s e) : IsValue outer (Expr.parens needed s) e := by
  cases needed with
  | false => exact hbare rfl
  | true =>
    have hparens := IsValue.parens isBlanks_nil (isValue_additive h) isBlanks_nil
    rw [List.nil_append, List.append_nil] at hparens
    exact isValue_of_operand hparens

end

/-! ## Trees -/

theorem isValue_constant {name : String} (h : IsIdentifier name.toList) :
    IsValue none name.toList (.constant name) := by
  have hname := IsValue.constant h
  rwa [String.ofList_toList] at hname

theorem isIdentifier_nan : IsIdentifier "nan".toList :=
  ⟨by decide, List.all_eq_true.mp (by decide)⟩

theorem isIdentifier_inf : IsIdentifier "inf".toList :=
  ⟨by decide, List.all_eq_true.mp (by decide)⟩

theorem isBlanks_space : IsBlanks [' '] := by
  intro c hc
  rw [List.mem_singleton.mp hc]
  decide

theorem isValue_zero : IsValue none ['0'] (.literal 0.0) := by
  have hl : IsLiteral ['0'] ⟨false, ['0'], [], false, []⟩ :=
    .mk .absent Number.isDigits_zero .absent .absent
  have hvalue : Literal.value ⟨false, ['0'], [], false, []⟩ = 0.0 := by decide
  rw [← hvalue]
  exact .literal hl

theorem isValue_negativeInfinity :
    IsValue none ['(', '0', ' ', '-', ' ', 'i', 'n', 'f', ')']
      (.binary (.literal 0.0) '-' (.constant "inf")) := by
  have hspace := isBlanks_space
  have hinf : IsValue none "inf".toList (.constant "inf") := isValue_constant isIdentifier_inf
  have hminus : '-' ∈ Level.additive.operators := by decide
  have hvalue := IsValue.binary (isValue_additive isValue_zero) hspace hminus hspace
    (isValue_of_operand hinf)
  exact .parens isBlanks_nil hvalue isBlanks_nil

theorem isValue_literal (x : Float) : IsValue none (Number.literal x) (Number.reread x) := by
  unfold Number.reread
  split
  · rename_i hnan
    simp only [Number.literal, hnan, if_true]
    exact isValue_constant isIdentifier_nan
  · rename_i hnan
    split
    · rename_i hinf
      simp only [Number.literal, hnan, hinf, if_true, Bool.false_eq_true, if_false]
      split
      · exact isValue_negativeInfinity
      · exact isValue_constant isIdentifier_inf
    · rename_i hinf
      exact .literal (isLiteral_spelled (Bool.eq_false_iff.mpr hnan) (Bool.eq_false_iff.mpr hinf))

theorem isValue_call {function : String} {argument r : Expr} (hname : IsIdentifier function.toList)
    (h : IsValue argument.level? argument.chars r) :
    IsValue none (Expr.call function argument).chars (.call function r) := by
  have hcall := IsValue.call hname isBlanks_nil isBlanks_nil (isValue_additive h) isBlanks_nil
  rw [String.ofList_toList, List.append_nil, List.nil_append, List.append_nil] at hcall
  simp only [Expr.chars, List.append_assoc]
  exact hcall

/-- Parentheses stand wherever an operand would otherwise be taken apart. -/
theorem isValue_binary {left right l r : Expr} {op : Char} (hop : (Level.of? op).isSome)
    (hleft : IsValue left.level? left.chars l) (hright : IsValue right.level? right.chars r) :
    IsValue (Expr.binary left op right).level? (Expr.binary left op right).chars
      (.binary l op r) := by
  obtain ⟨own, hown⟩ := Option.isSome_iff_exists.mp hop
  have hl : IsValue (some own)
      (Expr.parens (Expr.leftNeedsParens (some own) left.level?) left.chars) l := by
    refine isValue_parens hleft fun hbare => isValue_looser hleft fun k hk => ?_
    rw [hk] at hbare
    simpa [Expr.leftNeedsParens] using hbare
  have hr : IsValue own.tighter
      (Expr.parens (Expr.rightNeedsParens (some own) right.level?) right.chars) r := by
    refine isValue_parens hright fun hbare => isValue_tighter hright fun k hk => ?_
    rw [hk] at hbare
    simpa [Expr.rightNeedsParens] using hbare
  have hspace := isBlanks_space
  have hbinary := IsValue.binary hl hspace (Level.of?_eq_some_iff.mp hown) hspace hr
  have hlevel : (Expr.binary left op right).level? = some own := hown
  rw [hlevel, Expr.chars, hown]
  simp only [List.append_assoc, List.cons_append, List.nil_append] at hbinary ⊢
  exact hbinary

/-- A name without spaces at its end is read as it stands. -/
theorem isValue_column {name : String} (h : IsColumnName name.toList) :
    IsValue none (Expr.column name).chars (.column (id name)) := by
  have hcolumn :
      IsValue none ('$' :: (name.toList ++ [] ++ ['$'])) (.column (.ofList name.toList)) :=
    .column h (by simp)
  rwa [List.append_nil, String.ofList_toList] at hcolumn

section
variable {isName : List Char → Prop} {rename : String → String} {e : Expr}
  (hcolumn : ∀ name, isName name.toList →
    IsValue none (Expr.column name).chars (.column (rename name)))
include hcolumn

/-- The text of a tree is an expression of the tree's level, without blanks at its ends. -/
theorem isValue_chars (h : e.Spells isName) :
    IsValue e.level? e.chars (e.rereadWith rename) := by
  induction e with
  | literal v => exact isValue_literal v
  | column name => exact hcolumn name h
  | row => exact .row
  | constant name => exact isValue_constant h
  | call function argument ih => exact isValue_call h.1 (ih h.2)
  | binary left op right ihl ihr => exact isValue_binary h.1 (ihl h.2.1) (ihr h.2.2)

/-! ## Texts -/

theorem isExpression_chars (h : e.Spells isName) :
    IsExpression e.chars (e.rereadWith rename) := by
  have hvalue := isValue_additive (isValue_chars hcolumn h)
  have hexpr := IsExpression.mk isBlanks_nil hvalue isBlanks_nil
  rwa [List.nil_append, List.append_nil] at hexpr

theorem expr_parse_text (h : e.Spells isName) :
    Expr.parse e.text = .ok (e.rereadWith rename) := by
  refine expr_parse_eq_ok_iff.mpr ?_
  rw [Expr.text, String.toList_ofList]
  exact isExpression_chars hcolumn h

end

theorem isFormula_chars {f : Formula} (h : f.IsSpellable) : IsFormula f.chars f.reread := by
  obtain ⟨target, value⟩ := f
  obtain ⟨hname, hvalue⟩ := h
  have hspace := isBlanks_space
  cases target with
  | none => exact .value (isExpression_chars (fun _ => isValue_column) hvalue)
  | some name =>
    have hchars := isValue_chars (fun _ => isValue_column) hvalue
    have hexpr := IsExpression.mk hspace (isValue_additive hchars) isBlanks_nil
    have hformula := IsFormula.assignment isBlanks_nil (hname name rfl) hspace hexpr
    rw [String.ofList_toList] at hformula
    simpa [Formula.chars, Formula.reread, Expr.reread] using hformula

/--
A tree of the language reads back from its text with only its literals read anew, and so does a
formula with its target or without one. The literals that come back are those that the numbers are
spelled as.
-/
theorem parse_text :
    (∀ e : Expr, e.IsSpellable → Expr.parse e.text = .ok e.reread) ∧
    (∀ f : Formula, f.IsSpellable → Formula.parse f.text = .ok f.reread) ∧
    ∀ x : Float, x.isNaN = false → x.isInf = false →
      IsLiteral (Number.literal x) (Number.spelled x) := by
  refine ⟨fun e => expr_parse_text fun _ => isValue_column, fun f hf => ?_,
    fun x hnan hinf => isLiteral_spelled hnan hinf⟩
  refine formula_parse_eq_ok_iff.mpr ?_
  rw [Formula.text, String.toList_ofList]
  exact isFormula_chars hf

/--
The least positive double is lost on the way: the power of ten that its literal asks for is
infinite. Negative infinity comes back as a difference.
-/
theorem parse_text_least_double :
    let f : Formula := ⟨some "y",
      .binary (.binary (.literal (.ofBits 1)) '-' (.column "a (b) c")) '^'
        (.call "f" (.binary (.literal (-1.0 / 0.0)) '%' (.literal (0.0 / 0.0))))⟩
    f.text = "y = (5e-324 - $a (b) c$) ^ f((0 - inf) % nan)" ∧
    Formula.parse f.text = .ok ⟨some "y",
      .binary (.binary (.literal 0.0) '-' (.column "a (b) c")) '^'
        (.call "f" (.binary (.binary (.literal 0.0) '-' (.constant "inf")) '%'
          (.constant "nan")))⟩ := by
  intro f
  have hy : IsIdentifier "y".toList := ⟨by decide, List.all_eq_true.mp (by decide)⟩
  have hf : IsIdentifier "f".toList := ⟨by decide, List.all_eq_true.mp (by decide)⟩
  have ha : IsColumnName "a (b) c".toList :=
    ⟨⟨by decide, List.all_eq_true.mp (by decide)⟩, by decide⟩
  have hvalue : f.value.IsSpellable :=
    ⟨by decide, ⟨by decide, trivial, ha⟩, hf, by decide, trivial, trivial⟩
  have htarget : ∀ name ∈ f.target, IsIdentifier name.toList := by
    intro name hname
    cases hname
    exact hy
  refine ⟨by decide +kernel, (parse_text.2.1 f ⟨htarget, hvalue⟩).trans ?_⟩
  decide +kernel

end ColumnCalc
