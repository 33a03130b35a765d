import ColumnCalc.Expr.Literal
import ColumnCalc.Proofs.Text.Classes

/-!
# The grammar of formulas

The texts of the language and the trees that they stand for, as a relation that says nothing about
how a text is read: no piece is the longest one, no alternative comes before another one.

* `IsValue level s e`: the text `s`, without blanks at its ends, is an expression of the level with
  the tree `e`; without a level it is an operand.
* `IsExpression s e`: the whole text `s` is an expression.
* `IsFormula s f`: the whole text `s` is an expression with or without a target.
-/

namespace ColumnCalc

namespace Grammar

open Text

/-- Any number of blanks. -/
def IsBlanks (s : List Char) : Prop :=
  ∀ c ∈ s, isBlank c = true

/-- A character of the first class and any number of characters of the second. -/
def IsRun (start part : Char → Bool) : List Char → Prop
  | [] => False
  | c :: r => start c = true ∧ ∀ d ∈ r, part d = true

def IsIdentifier (s : List Char) : Prop :=
  IsRun isIdentStart isIdentPart s

def IsDigits (s : List Char) : Prop :=
  IsRun Char.isDigit Char.isDigit s

/-- The name of a column, which ends with another character than a space. -/
def IsColumnName (s : List Char) : Prop :=
  IsRun isColumnStart isColumnPart s ∧ s.getLast? ≠ some ' '

/-! ## Literals -/

/-- An optional sign, true for a minus. -/
inductive IsSign : List Char → Bool → Prop where
  | absent : IsSign [] false
  | plus : IsSign ['+'] false
  | minus : IsSign ['-'] true

/-- An optional point with digits. -/
inductive IsFraction : List Char → List Char → Prop where
  | absent : IsFraction [] []
  | present {ds : List Char} : IsDigits ds → IsFraction ('.' :: ds) ds

/-- An optional `e` with a sign and digits. -/
inductive IsPower : List Char → Bool → List Char → Prop where
  | absent : IsPower [] false []
  | present {sign ds : List Char} {negative : Bool} : IsSign sign negative → IsDigits ds →
      IsPower ('e' :: (sign ++ ds)) negative ds

/-- A literal, the parts of which follow one another without blanks. -/
inductive IsLiteral : List Char → Literal → Prop where
  | mk {sign whole point fraction mark power : List Char} {negative powerNegative : Bool} :
      IsSign sign negative → IsDigits whole → IsFraction point fraction →
      IsPower mark powerNegative power →
      IsLiteral (sign ++ whole ++ point ++ mark)
        ⟨negative, whole, fraction, powerNegative, power⟩

/-! ## Expressions -/

/-- The expressions of a level, or the operands if there is none, with their trees. -/
inductive IsValue : Option Level → List Char → Expr → Prop where
  | lift {level : Level} {s : List Char} {e : Expr} :
      IsValue level.tighter s e → IsValue (some level) s e
  | binary {level : Level} {s b b' t : List Char} {l r : Expr} {op : Char} :
      IsValue (some level) s l → IsBlanks b → op ∈ level.operators → IsBlanks b' →
      IsValue level.tighter t r →
      IsValue (some level) (s ++ b ++ op :: (b' ++ t)) (.binary l op r)
  | call {name b b' s b'' : List Char} {e : Expr} :
      IsIdentifier name → IsBlanks b → IsBlanks b' → IsValue (some .additive) s e → IsBlanks b'' →
      IsValue none (name ++ b ++ '(' :: (b' ++ s ++ b'' ++ [')'])) (.call (.ofList name) e)
  | column {name spaces : List Char} :
      IsColumnName name → (∀ c ∈ spaces, c = ' ') →
      IsValue none ('$' :: (name ++ spaces ++ ['$'])) (.column (.ofList name))
  | literal {s : List Char} {l : Literal} : IsLiteral s l → IsValue none s (.literal l.value)
  | row : IsValue none ['#'] .row
  | parens {b s b' : List Char} {e : Expr} :
      IsBlanks b → IsValue (some .additive) s e → IsBlanks b' →
      IsValue none ('(' :: (b ++ s ++ b' ++ [')'])) e
  | constant {name : List Char} : IsIdentifier name → IsValue none name (.constant (.ofList name))

/-- An expression between blanks. -/
inductive IsExpression : List Char → Expr → Prop where
  | mk {b s b' : List Char} {e : Expr} :
      IsBlanks b → IsValue (some .additive) s e → IsBlanks b' → IsExpression (b ++ s ++ b') e

/-- An expression, or a name, `=` and an expression. -/
inductive IsFormula : List Char → Formula → Prop where
  | value {s : List Char} {e : Expr} : IsExpression s e → IsFormula s ⟨none, e⟩
  | assignment {b name b' s : List Char} {e : Expr} :
      IsBlanks b → IsIdentifier name → IsBlanks b' → IsExpression s e →
      IsFormula (b ++ name ++ b' ++ '=' :: s) ⟨some (.ofList name), e⟩

/-- The text starts with a name and `=`; the rest stands behind them. -/
def IsTargeted (s name rest : List Char) : Prop :=
  ∃ b b', IsBlanks b ∧ IsIdentifier name ∧ IsBlanks b' ∧ s = b ++ name ++ b' ++ '=' :: rest

/-! ## First characters -/

/-- A digit or a sign. -/
def IsLiteralStart (c : Char) : Prop :=
  c.isDigit = true ∨ c = '+' ∨ c = '-'

instance (c : Char) : Decidable (IsLiteralStart c) :=
  inferInstanceAs (Decidable (_ ∨ _))

theorem IsLiteralStart.isBlank {c : Char} (h : IsLiteralStart c) : isBlank c = false := by
  rcases h with h | rfl | rfl
  · exact isBlank_of_isIdentPart (isIdentPart_of_isDigit h)
  · decide
  · decide

theorem IsLiteralStart.isIdentStart {c : Char} (h : IsLiteralStart c) :
    isIdentStart c = false := by
  rcases h with h | rfl | rfl
  · exact isIdentStart_of_isDigit h
  · decide
  · decide

theorem isRun_head {start part : Char → Bool} {s : List Char} (h : IsRun start part s) :
    ∃ c r, s = c :: r ∧ start c = true := by
  cases s with
  | nil => cases h
  | cons c r => exact ⟨c, r, rfl, h.1⟩

theorem isIdentPart_of_mem {name : List Char} {c : Char} (h : IsIdentifier name) (hc : c ∈ name) :
    isIdentPart c = true := by
  cases name with
  | nil => cases h
  | cons d r =>
    rcases List.mem_cons.mp hc with rfl | hc
    · exact isIdentPart_of_isIdentStart h.1
    · exact h.2 c hc

theorem isLiteral_head {s : List Char} {l : Literal} (h : IsLiteral s l) :
    ∃ c r, s = c :: r ∧ IsLiteralStart c := by
  obtain ⟨hsign, hwhole, -, -⟩ := h
  cases hsign with
  | absent =>
    obtain ⟨c, r, rfl, hc⟩ := isRun_head hwhole
    exact ⟨c, _, rfl, .inl hc⟩
  | plus => exact ⟨'+', _, rfl, .inr (.inl rfl)⟩
  | minus => exact ⟨'-', _, rfl, .inr (.inr rfl)⟩

theorem isValue_head {level : Option Level} {s : List Char} {e : Expr} (h : IsValue level s e) :
    ∃ c r, s = c :: r ∧ isBlank c = false := by
  induction h with
  | lift _ ih => exact ih
  | binary _ _ _ _ _ ih _ =>
    obtain ⟨c, r, rfl, hc⟩ := ih
    exact ⟨c, _, rfl, hc⟩
  | call hname _ _ _ _ _ =>
    obtain ⟨c, r, rfl, hc⟩ := isRun_head hname
    exact ⟨c, _, rfl, isBlank_of_isIdentPart (isIdentPart_of_isIdentStart hc)⟩
  | column _ _ => exact ⟨'$', _, rfl, by decide⟩
  | literal hl =>
    obtain ⟨c, r, rfl, hc⟩ := isLiteral_head hl
    exact ⟨c, r, rfl, hc.isBlank⟩
  | row => exact ⟨'#', _, rfl, by decide⟩
  | parens _ _ _ _ => exact ⟨'(', _, rfl, by decide⟩
  | constant hname =>
    obtain ⟨c, r, rfl, hc⟩ := isRun_head hname
    exact ⟨c, r, rfl, isBlank_of_isIdentPart (isIdentPart_of_isIdentStart hc)⟩

/-! ## Absent characters -/

theorem not_mem_of_isBlanks {b : List Char} {c : Char} (h : IsBlanks b) (hc : isBlank c = false) :
    c ∉ b := by
  intro hm
  rw [h c hm] at hc
  cases hc

theorem not_mem_of_isRun {start part : Char → Bool} {s : List Char} {c : Char}
    (h : IsRun start part s) (hs : start c = false) (hp : part c = false) : c ∉ s := by
  cases s with
  | nil => exact List.not_mem_nil
  | cons d r =>
    intro hm
    rcases List.mem_cons.mp hm with rfl | hm
    · rw [h.1] at hs
      cases hs
    · rw [h.2 c hm] at hp
      cases hp

theorem not_mem_of_isLiteral {s : List Char} {l : Literal} {c : Char} (h : IsLiteral s l)
    (hdigit : c.isDigit = false) (hmark : c ∉ ['+', '-', '.', 'e']) : c ∉ s := by
  simp only [List.mem_cons, List.not_mem_nil, or_false, not_or] at hmark
  obtain ⟨hplus, hminus, hpoint, hpower⟩ := hmark
  have hdigits {ds : List Char} (h : IsDigits ds) : c ∉ ds := not_mem_of_isRun h hdigit hdigit
  have hsigns {t : List Char} {negative : Bool} (h : IsSign t negative) : c ∉ t := by
    cases h <;> simp [hplus, hminus]
  obtain ⟨hsign, hwhole, hfraction, hexponent⟩ := h
  have hfractions : ∀ {t f : List Char}, IsFraction t f → c ∉ t := by
    rintro _ _ (_ | hd)
    · exact List.not_mem_nil
    · simpa [hpoint] using hdigits hd
  have hexponents : ∀ {t ds : List Char} {n : Bool}, IsPower t n ds → c ∉ t := by
    rintro _ _ _ (_ | ⟨hs, hd⟩)
    · exact List.not_mem_nil
    · simpa [hpower] using ⟨hsigns hs, hdigits hd⟩
  simp only [List.mem_append, not_or]
  exact ⟨⟨⟨hsigns hsign, hdigits hwhole⟩, hfractions hfraction⟩, hexponents hexponent⟩

/-- No expression contains the sign that stands behind a target. -/
theorem not_mem_of_isValue {level : Option Level} {s : List Char} {e : Expr}
    (h : IsValue level s e) : '=' ∉ s := by
  have hblanks {b : List Char} (hb : IsBlanks b) : '=' ∉ b := not_mem_of_isBlanks hb (by decide)
  have hname {name : List Char} (h : IsIdentifier name) : '=' ∉ name :=
    not_mem_of_isRun h (by decide) (by decide)
  induction h with
  | lift _ ih => exact ih
  | @binary level _ _ _ _ _ _ op _ hb hop hb' _ ih ih' =>
    have hne : '=' ≠ op := by
      rintro rfl
      cases level <;> exact absurd hop (by decide)
    simp [ih, ih', hblanks hb, hblanks hb', hne]
  | call hn hb hb' _ hb'' ih => simp [ih, hname hn, hblanks hb, hblanks hb', hblanks hb'']
  | @column name spaces hn hspaces =>
    have hn : '=' ∉ name := not_mem_of_isRun hn.1 (by decide) (by decide)
    have hspaces : '=' ∉ spaces := fun hm => absurd (hspaces _ hm) (by decide)
    simp [hn, hspaces]
  | literal hl => exact not_mem_of_isLiteral hl (by decide) (by decide)
  | row => decide
  | parens hb _ hb' ih => simp [ih, hblanks hb, hblanks hb']
  | constant hn => exact hname hn

end Grammar

end ColumnCalc
