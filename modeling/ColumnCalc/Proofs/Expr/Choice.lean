import ColumnCalc.Proofs.Expr.Chains

/-!
# The choice between the forms of operands

The parser takes the first form that matches. Its first character alone says what an operand can be
read as, except for a call and a constant, and these differ in the parenthesis behind the name; so
the choice neither loses an operand (`complete_operand`) nor adds one (`starts_of_reads_operand`).
-/

namespace ColumnCalc

open Text Grammar
open ColumnCalc.Parser (Within)

/-! ## Operands that are read are operands -/

section
variable {s r r₁ r₂ r₃ : List Char} {e : Expr} {inner : Within s}

theorem isBlanks_append {b b' : List Char} (hb : IsBlanks b) (hb' : IsBlanks b') :
    IsBlanks (b ++ b') := by
  intro c hc
  rcases List.mem_append.mp hc with hc | hc
  · exact hb c hc
  · exact hb' c hc

/-- The text between two parentheses. -/
theorem exists_of_reads_inner (hinner : Sound (some .additive) inner)
    {h : (skipBlank r₁).length < s.length} (hvalue : Reads (inner (skipBlank r₁) h) e r₂)
    (hclose : skipBlank r₂ = ')' :: r₃) :
    ∃ b t b', IsBlanks b ∧ IsValue (some .additive) t e ∧ IsBlanks b' ∧
      r₁ = b ++ t ++ b' ++ ')' :: r₃ := by
  obtain ⟨b, hb, hopen⟩ := exists_skipBlank r₁
  obtain ⟨t, b₁, ht, hb₁, hsplit⟩ := hinner _ _ _ _ hvalue
  obtain ⟨b₂, hb₂, hrest⟩ := exists_skipBlank r₂
  refine ⟨b, t, b₁ ++ b₂, hb, ht, isBlanks_append hb₁ hb₂, ?_⟩
  rw [hopen, hsplit, hrest, hclose]
  simp

theorem starts_skipBlank {level : Option Level} {t : List Char} (ht : IsValue level t e) :
    Starts level (t ++ r) e (skipBlank r) := by
  obtain ⟨b, hb, hrest⟩ := exists_skipBlank r
  refine ⟨t, b, ht, hb, ?_⟩
  rw [List.append_assoc, ← hrest]

theorem starts_of_reads_call (hinner : Sound (some .additive) inner)
    (h : Reads (Parser.call s inner) e r) : Starts none s e r := by
  obtain ⟨name, r₁, r₂, r₃, r₄, a, _, hname, hopen, harg, hclose, rfl, rfl⟩ := reads_call_iff.mp h
  obtain ⟨hident, rfl⟩ := isIdentifier_of_identifier hname
  obtain ⟨b, hb, hsplit⟩ := exists_skipBlank r₁
  obtain ⟨b', t, b'', hb', ht, hb'', rfl⟩ := exists_of_reads_inner hinner harg hclose
  have hs : name ++ r₁ = name ++ b ++ '(' :: (b' ++ t ++ b'' ++ [')']) ++ r₄ := by
    rw [hsplit, hopen]
    simp
  rw [hs]
  exact starts_skipBlank (.call hident hb hb' ht hb'')

theorem starts_of_reads_column (h : Reads (Parser.column s) e r) : Starts none s e r := by
  obtain ⟨r₁, r₂, name, _, rfl, hname, rfl, rfl⟩ := reads_column_iff.mp h
  obtain ⟨spaces, hcolumn, hspaces, hsplit⟩ := isColumnName_of_columnName? hname
  have hs : '$' :: r₁ = '$' :: (name ++ spaces ++ ['$']) ++ r₂ := by
    rw [hsplit]
    simp
  rw [hs]
  exact starts_skipBlank (.column hcolumn hspaces)

theorem starts_of_reads_literal (h : Reads (Parser.literal s) e r) : Starts none s e r := by
  obtain ⟨l, r₁, ⟨_, hl⟩, rfl, rfl⟩ := reads_literal_iff.mp h
  obtain ⟨t, ht, hs⟩ := isLiteral_of_parse hl
  rw [hs]
  exact starts_skipBlank (.literal ht)

theorem starts_of_reads_row (h : Reads (Parser.row s) e r) : Starts none s e r := by
  obtain ⟨r₁, rfl, rfl, rfl⟩ := reads_row_iff.mp h
  exact starts_skipBlank .row

theorem starts_of_reads_parenthesized (hinner : Sound (some .additive) inner)
    (h : Reads (Parser.parenthesized s inner) e r) : Starts none s e r := by
  obtain ⟨r₁, r₂, r₃, _, rfl, hvalue, hclose, rfl⟩ := reads_parenthesized_iff.mp h
  obtain ⟨b, t, b', hb, ht, hb', rfl⟩ := exists_of_reads_inner hinner hvalue hclose
  have hs : '(' :: (b ++ t ++ b' ++ ')' :: r₃) = '(' :: (b ++ t ++ b' ++ [')']) ++ r₃ := by simp
  rw [hs]
  exact starts_skipBlank (.parens hb ht hb')

theorem starts_of_reads_constant (h : Reads (Parser.constant s) e r) : Starts none s e r := by
  obtain ⟨name, r₁, hname, rfl, rfl⟩ := reads_constant_iff.mp h
  obtain ⟨hident, rfl⟩ := isIdentifier_of_identifier hname
  exact starts_skipBlank (.constant hident)

/-- The forms of operands in the order in which they are tried. -/
def Parser.forms (s : List Char) (inner : Within s) : List (Unit → Parser.Result s) :=
  [fun _ => call s inner, fun _ => column s, fun _ => literal s, fun _ => row s,
    fun _ => parenthesized s inner, fun _ => constant s]

theorem exists_form_of_reads_operand (h : Reads (Parser.operand s inner) e r) :
    ∃ form ∈ Parser.forms s inner, Reads (form ()) e r := by
  obtain ⟨earlier, form, later, hforms, -, hform⟩ := reads_firstOf_iff.mp h
  refine ⟨form, ?_, hform⟩
  change Parser.forms s inner = _ at hforms
  rw [hforms]
  exact List.mem_append_right _ List.mem_cons_self

theorem starts_of_mem_forms {form : Unit → Parser.Result s} (hinner : Sound (some .additive) inner)
    (hform : form ∈ Parser.forms s inner) (h : Reads (form ()) e r) : Starts none s e r := by
  simp only [Parser.forms, List.mem_cons, List.not_mem_nil, or_false] at hform
  obtain rfl | rfl | rfl | rfl | rfl | rfl := hform
  · exact starts_of_reads_call hinner h
  · exact starts_of_reads_column h
  · exact starts_of_reads_literal h
  · exact starts_of_reads_row h
  · exact starts_of_reads_parenthesized hinner h
  · exact starts_of_reads_constant h

theorem starts_of_reads_operand (hinner : Sound (some .additive) inner)
    (h : Reads (Parser.operand s inner) e r) : Starts none s e r := by
  obtain ⟨form, hmem, hform⟩ := exists_form_of_reads_operand h
  exact starts_of_mem_forms hinner hmem hform

end

/-! ## Forms that do not match -/

section
variable {s r r' : List Char} {c : Char} {e : Expr}

theorem not_reads_call {inner : Within (c :: r')} (hc : isIdentStart c = false) :
    ¬ Reads (Parser.call (c :: r') inner) e r := by
  intro h
  obtain ⟨name, r₁, _, _, _, _, _, hname, -⟩ := reads_call_iff.mp h
  obtain ⟨hident, hs⟩ := isIdentifier_of_identifier hname
  obtain ⟨d, t, rfl, hd⟩ := isRun_head hident
  cases hs
  rw [hd] at hc
  cases hc

theorem not_reads_column (hc : c ≠ '$') : ¬ Reads (Parser.column (c :: r')) e r := by
  intro h
  obtain ⟨_, _, _, _, hs, -⟩ := reads_column_iff.mp h
  cases hs
  exact hc rfl

theorem not_reads_literal (hc : ¬ IsLiteralStart c) : ¬ Reads (Parser.literal (c :: r')) e r := by
  intro h
  obtain ⟨l, r₁, ⟨_, hl⟩, -⟩ := reads_literal_iff.mp h
  obtain ⟨t, ht, hs⟩ := isLiteral_of_parse hl
  obtain ⟨d, t, rfl, hd⟩ := isLiteral_head ht
  obtain ⟨rfl, -⟩ := List.cons.inj hs
  exact hc hd

theorem not_reads_row (hc : c ≠ '#') : ¬ Reads (Parser.row (c :: r')) e r := by
  intro h
  obtain ⟨_, hs, -⟩ := reads_row_iff.mp h
  cases hs
  exact hc rfl

theorem not_reads_parenthesized {inner : Within (c :: r')} (hc : c ≠ '(') :
    ¬ Reads (Parser.parenthesized (c :: r') inner) e r := by
  intro h
  obtain ⟨_, _, _, _, hs, -⟩ := reads_parenthesized_iff.mp h
  cases hs
  exact hc rfl

/-- A name is no call if no parenthesis stands behind it. -/
theorem not_reads_call_of_name {name : List Char} {inner : Within (name ++ r')}
    (hname : IsIdentifier name) (hend : ∀ c ∈ r'.head?, isIdentPart c = false)
    (hopen : '(' ∉ (skipBlank r').head?) : ¬ Reads (Parser.call (name ++ r') inner) e r := by
  intro h
  obtain ⟨name', r₁, r₂, _, _, _, _, hread, hskip, -⟩ := reads_call_iff.mp h
  obtain ⟨rfl, rfl⟩ := hread.unique (reads_identifier hname hend)
  rw [hskip] at hopen
  exact hopen rfl

theorem not_reads_call_of_follows {name b : List Char} {inner : Within (name ++ (b ++ r'))}
    (hname : IsIdentifier name) (hb : IsBlanks b) (hr : Follows none r') :
    ¬ Reads (Parser.call (name ++ (b ++ r')) inner) e r := by
  have hbreak : Breaks (b ++ r') := .blanks hb hr.breaks
  refine not_reads_call_of_name hname (fun c hc => (hbreak c hc).1) ?_
  rw [skipBlank_append hb, hr.skipBlank_eq]
  exact fun hopen => hr.ne_of_mem_head? hopen (by decide) (by decide) rfl

end

/-! ## The form that an operand is read as -/

section
variable {s r : List Char} {e : Expr} {inner : Within s}

theorem reads_operand_of_call (h : Reads (Parser.call s inner) e r) :
    Reads (Parser.operand s inner) e r :=
  reads_firstOf_iff.mpr ⟨[], _, _, rfl, by simp, h⟩

theorem reads_operand_of_column (h : Reads (Parser.column s) e r) :
    Reads (Parser.operand s inner) e r := by
  obtain ⟨r₁, _, _, _, rfl, -⟩ := reads_column_iff.mp h
  refine reads_firstOf_iff.mpr ⟨[_], _, _, rfl, ?_, h⟩
  simp only [List.mem_singleton]
  rintro _ rfl e r
  exact not_reads_call (by decide)

theorem reads_operand_of_literal (h : Reads (Parser.literal s) e r) :
    Reads (Parser.operand s inner) e r := by
  obtain ⟨l, r₁, ⟨_, hl⟩, -⟩ := reads_literal_iff.mp h
  obtain ⟨t, ht, hs⟩ := isLiteral_of_parse hl
  obtain ⟨c, t, rfl, hc⟩ := isLiteral_head ht
  obtain rfl : s = c :: (t ++ r₁) := hs
  refine reads_firstOf_iff.mpr ⟨[_, _], _, _, rfl, ?_, h⟩
  simp only [List.mem_cons, List.not_mem_nil, or_false]
  rintro _ (rfl | rfl) e r
  · exact not_reads_call hc.isIdentStart
  · refine not_reads_column ?_
    rintro rfl
    exact absurd hc (by decide)

theorem reads_operand_of_row (h : Reads (Parser.row s) e r) :
    Reads (Parser.operand s inner) e r := by
  obtain ⟨r₁, rfl, -⟩ := reads_row_iff.mp h
  refine reads_firstOf_iff.mpr ⟨[_, _, _], _, _, rfl, ?_, h⟩
  simp only [List.mem_cons, List.not_mem_nil, or_false]
  rintro _ (rfl | rfl | rfl) e r
  · exact not_reads_call (by decide)
  · exact not_reads_column (by decide)
  · exact not_reads_literal (by decide)

theorem reads_operand_of_parenthesized (h : Reads (Parser.parenthesized s inner) e r) :
    Reads (Parser.operand s inner) e r := by
  obtain ⟨r₁, _, _, _, rfl, -⟩ := reads_parenthesized_iff.mp h
  refine reads_firstOf_iff.mpr ⟨[_, _, _, _], _, _, rfl, ?_, h⟩
  simp only [List.mem_cons, List.not_mem_nil, or_false]
  rintro _ (rfl | rfl | rfl | rfl) e r
  · exact not_reads_call (by decide)
  · exact not_reads_column (by decide)
  · exact not_reads_literal (by decide)
  · exact not_reads_row (by decide)

/-- The two forms that start with a name are the only ones that need more than that. -/
theorem reads_operand_of_constant (hcall : ∀ e r, ¬ Reads (Parser.call s inner) e r)
    (h : Reads (Parser.constant s) e r) : Reads (Parser.operand s inner) e r := by
  obtain ⟨name, r₁, hname, -⟩ := reads_constant_iff.mp h
  obtain ⟨hident, rfl⟩ := isIdentifier_of_identifier hname
  obtain ⟨c, t, rfl, hc⟩ := isRun_head hident
  have hne {d : Char} (hd : isIdentStart d = false) : c ≠ d := by
    rintro rfl
    rw [hc] at hd
    cases hd
  refine reads_firstOf_iff.mpr ⟨[_, _, _, _, _], _, _, rfl, ?_, h⟩
  simp only [List.mem_cons, List.not_mem_nil, or_false]
  rintro _ (rfl | rfl | rfl | rfl | rfl) e r
  · exact hcall e r
  · exact not_reads_column (hne (by decide))
  · refine not_reads_literal fun hl => ?_
    rw [hl.isIdentStart] at hc
    cases hc
  · exact not_reads_row (hne (by decide))
  · exact not_reads_parenthesized (hne (by decide))

end

/-! ## Operands are read -/

theorem skipBlank_parenthesis {c : Char} {r : List Char} (hc : c = '(' ∨ c = ')') :
    skipBlank (c :: r) = c :: r := by
  refine skipBlank_cons ?_
  rcases hc with rfl | rfl <;> decide

section
variable {s r t b b' : List Char} {e : Expr} {inner : Within s}

/-- The inner parser reads the text between two parentheses. -/
theorem reads_inner (hinner : Complete (some .additive) inner)
    (hb : IsBlanks b) (ht : IsValue (some .additive) t e) (hb' : IsBlanks b')
    (hlt : (b ++ t ++ b' ++ ')' :: r).length < s.length) :
    ∃ h, Reads (inner (skipBlank (b ++ t ++ b' ++ ')' :: r)) h) e (')' :: r) := by
  have hskip : skipBlank (b ++ t ++ b' ++ ')' :: r) = t ++ b' ++ ')' :: r := by
    simp only [List.append_assoc]
    rw [skipBlank_append hb, skipBlank_eq_self ht]
  refine ⟨Nat.lt_of_le_of_lt (length_skipBlank_le _) hlt, ?_⟩
  exact hinner _ _ _ _ ⟨t, b', ht, hb', hskip⟩ .closing

theorem reads_call {name b₁ : List Char} (hinner : Complete (some .additive) inner)
    (hname : IsIdentifier name) (hb₁ : IsBlanks b₁) (hb : IsBlanks b)
    (ht : IsValue (some .additive) t e) (hb' : IsBlanks b')
    (hs : s = name ++ (b₁ ++ '(' :: (b ++ t ++ b' ++ ')' :: r))) :
    Reads (Parser.call s inner) (.call (.ofList name) e) (skipBlank r) := by
  have hbreak : Breaks (b₁ ++ '(' :: (b ++ t ++ b' ++ ')' :: r)) :=
    .blanks hb₁ (.cons (by decide))
  have hread : Reads (Parser.identifier s) name (b₁ ++ '(' :: (b ++ t ++ b' ++ ')' :: r)) := by
    rw [hs]
    exact reads_identifier hname fun c hc => (hbreak c hc).1
  have hopen : skipBlank (b₁ ++ '(' :: (b ++ t ++ b' ++ ')' :: r))
      = '(' :: (b ++ t ++ b' ++ ')' :: r) := by
    rw [skipBlank_append hb₁]
    exact skipBlank_parenthesis (.inl rfl)
  have hlt : (b ++ t ++ b' ++ ')' :: r).length < s.length := by
    rw [hs]
    simp only [List.length_append, List.length_cons]
    omega
  obtain ⟨_, hvalue⟩ := reads_inner hinner hb ht hb' hlt
  exact reads_call_iff.mpr ⟨name, _, _, _, r, e, _, hread, hopen, hvalue,
    skipBlank_parenthesis (.inr rfl), rfl, rfl⟩

theorem reads_parenthesized (hinner : Complete (some .additive) inner)
    (hb : IsBlanks b) (ht : IsValue (some .additive) t e) (hb' : IsBlanks b')
    (hs : s = '(' :: (b ++ t ++ b' ++ ')' :: r)) :
    Reads (Parser.parenthesized s inner) e (skipBlank r) := by
  have hlt : (b ++ t ++ b' ++ ')' :: r).length < s.length := by
    rw [hs]
    exact Nat.lt_succ_self _
  obtain ⟨_, hvalue⟩ := reads_inner hinner hb ht hb' hlt
  exact reads_parenthesized_iff.mpr ⟨_, _, r, _, hs, hvalue, skipBlank_parenthesis (.inr rfl), rfl⟩

end

section
variable {s r t : List Char} {e : Expr}

theorem reads_column {name spaces : List Char} (hname : IsColumnName name)
    (hspaces : ∀ c ∈ spaces, c = ' ') (hs : s = '$' :: (name ++ spaces ++ '$' :: r)) :
    Reads (Parser.column s) (.column (.ofList name)) (skipBlank r) := by
  have hclose : ∀ c ∈ ('$' :: r).head?, isColumnPart c = false := by
    intro c hc
    cases hc
    decide
  obtain ⟨h, hscan⟩ := columnName?_append hname hspaces hclose
  exact reads_column_iff.mpr ⟨_, r, name, h, hs, hscan, rfl, rfl⟩

/--
An operand is read as a whole, with the blanks behind it. What follows it ends its name or its
digits and is no parenthesis, so that a constant is not taken for a call.
-/
theorem complete_operand {inner : Within s} (hinner : Complete (some .additive) inner)
    (h : Starts none s e r) (hr : Follows none r) : Reads (Parser.operand s inner) e r := by
  obtain ⟨t, b, ht, hb, hs⟩ := h
  have hbreak : Breaks (b ++ r) := .blanks hb hr.breaks
  have hskip : skipBlank (b ++ r) = r := by rw [skipBlank_append hb, hr.skipBlank_eq]
  rw [List.append_assoc] at hs
  cases ht with
  | call hname hb₁ hb₂ hu hb₃ =>
    have hform := reads_call (r := b ++ r) hinner hname hb₁ hb₂ hu hb₃ (by rw [hs]; simp)
    rw [hskip] at hform
    exact reads_operand_of_call hform
  | @column name spaces hname hspaces =>
    have hs' : s = '$' :: (name ++ spaces ++ '$' :: (b ++ r)) := by
      rw [hs]
      simp
    have hform := reads_column hname hspaces hs'
    rw [hskip] at hform
    exact reads_operand_of_column hform
  | literal hl =>
    subst hs
    have hform := reads_literal_iff.mpr ⟨_, _, reads_literal hl hbreak, rfl, rfl⟩
    rw [hskip] at hform
    exact reads_operand_of_literal hform
  | row =>
    have hform := reads_row_iff.mpr ⟨b ++ r, hs, rfl, rfl⟩
    rw [hskip] at hform
    exact reads_operand_of_row hform
  | parens hb₁ hu hb₂ =>
    have hform := reads_parenthesized (r := b ++ r) hinner hb₁ hu hb₂ (by rw [hs]; simp)
    rw [hskip] at hform
    exact reads_operand_of_parenthesized hform
  | constant hname =>
    subst hs
    have hread := reads_identifier hname fun c hc => (hbreak c hc).1
    have hform := reads_constant_iff.mpr ⟨_, _, hread, rfl, rfl⟩
    rw [hskip] at hform
    exact reads_operand_of_constant (fun _ _ => not_reads_call_of_follows hname hb hr) hform

end

end ColumnCalc
