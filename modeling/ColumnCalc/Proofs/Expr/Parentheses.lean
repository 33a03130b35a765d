import ColumnCalc.Proofs.Expr.Rendering

/-!
# No parentheses too many

Without one of the pairs of parentheses that it prints around an operand, the text of a tree is the
text of another tree, in which the operators are grouped anew: what stood in the parentheses is
joined with what stands behind it (`attach`) or in front of it (`prepend`), and the join moves down
past every operator of a looser level. The other tree does not read back as the first one does.
-/

namespace ColumnCalc

open Grammar

namespace Expr

/-! ## What comes back -/

/-- The names and operators are those of the grammar; a column's name may end with spaces. -/
def IsWritable (e : Expr) : Prop :=
  e.Spells (IsRun isColumnStart isColumnPart)

/-- The tree that the text of a tree reads as: spaces at the end of a column's name are lost. -/
def returned (e : Expr) : Expr :=
  e.rereadWith fun name => .ofList (Text.trimEnd (· == ' ') name.toList)

@[simp]
theorem returned_call (function : String) (argument : Expr) :
    (call function argument).returned = call function argument.returned := rfl

@[simp]
theorem returned_binary (left : Expr) (op : Char) (right : Expr) :
    (binary left op right).returned = binary left.returned op right.returned := rfl

/-- The number of nodes. -/
def size : Expr → Nat
  | call _ argument => argument.size + 1
  | binary left _ right => left.size + right.size + 1
  | _ => 1

theorem isValue_column_returned {name : String}
    (h : IsRun isColumnStart isColumnPart name.toList) :
    IsValue none (column name).chars
      (column (.ofList (Text.trimEnd (· == ' ') name.toList))) := by
  obtain ⟨spaces, hspaces, hsplit⟩ := Text.exists_trimEnd (· == ' ') name.toList
  have hname : IsColumnName (Text.trimEnd (· == ' ') name.toList) :=
    ⟨isRun_trimEnd h not_space_of_isColumnStart, fun hlast =>
      absurd (Text.not_of_getLast?_trimEnd hlast) (by decide)⟩
  have hcolumn := IsValue.column hname fun c hc => eq_of_beq (hspaces c hc)
  rwa [← hsplit] at hcolumn

/-! ## Printed parentheses -/

def opening (needed : Bool) : List Char :=
  if needed then ['('] else []

def closing (needed : Bool) : List Char :=
  if needed then [')'] else []

theorem parens_eq (needed : Bool) (text : List Char) :
    parens needed text = opening needed ++ text ++ closing needed := by
  cases needed
  · simp [parens, opening, closing]
  · rfl

/--
The places in the text of a tree where a pair of parentheses is printed around an operand: the text
in front of the pair, in it and behind it.
-/
inductive PrintsParens : Expr → List Char → List Char → List Char → Prop where
  | left {l r : Expr} {op : Char} : leftNeedsParens (Level.of? op) l.level? = true →
      PrintsParens (binary l op r) [] l.chars
        ([' ', op, ' '] ++ parens (rightNeedsParens (Level.of? op) r.level?) r.chars)
  | right {l r : Expr} {op : Char} : rightNeedsParens (Level.of? op) r.level? = true →
      PrintsParens (binary l op r)
        (parens (leftNeedsParens (Level.of? op) l.level?) l.chars ++ [' ', op, ' ']) r.chars []
  | inLeft {l r : Expr} {op : Char} {before inside after : List Char} :
      PrintsParens l before inside after →
      PrintsParens (binary l op r)
        (opening (leftNeedsParens (Level.of? op) l.level?) ++ before) inside
        (after ++ closing (leftNeedsParens (Level.of? op) l.level?) ++ [' ', op, ' ']
          ++ parens (rightNeedsParens (Level.of? op) r.level?) r.chars)
  | inRight {l r : Expr} {op : Char} {before inside after : List Char} :
      PrintsParens r before inside after →
      PrintsParens (binary l op r)
        (parens (leftNeedsParens (Level.of? op) l.level?) l.chars ++ [' ', op, ' ']
          ++ opening (rightNeedsParens (Level.of? op) r.level?) ++ before) inside
        (after ++ closing (rightNeedsParens (Level.of? op) r.level?))
  | inArgument {function : String} {argument : Expr} {before inside after : List Char} :
      PrintsParens argument before inside after →
      PrintsParens (call function argument) (function.toList ++ '(' :: before) inside
        (after ++ [')'])

theorem PrintsParens.chars_eq {e : Expr} {before inside after : List Char}
    (h : e.PrintsParens before inside after) :
    e.chars = before ++ '(' :: inside ++ ')' :: after := by
  induction h with
  | left hneeded => simp [chars, hneeded, parens]
  | right hneeded => simp [chars, hneeded, parens]
  | inLeft _ ih => simp [chars, parens_eq, ih]
  | inRight _ ih => simp [chars, parens_eq, ih]
  | inArgument _ ih => simp [chars, ih]

/-! ## Grouping anew -/

/-- The tree of `left op right` if no parentheses stand around `left`. -/
def attach (left : Expr) (op : Char) (right : Expr) : Expr :=
  match left with
  | binary l o q =>
    if leftNeedsParens (Level.of? op) (Level.of? o) then
      binary l o
        (if rightNeedsParens (Level.of? o) q.level? then binary q op right
        else q.attach op right)
    else binary (binary l o q) op right
  | left => binary left op right

/-- The tree of `left op right` if no parentheses stand around `right`. -/
def prepend (left : Expr) (op : Char) (right : Expr) : Expr :=
  match right with
  | binary q o r =>
    if rightNeedsParens (Level.of? op) (Level.of? o) then
      binary
        (if leftNeedsParens (Level.of? o) q.level? then binary left op q else prepend left op q) o r
    else binary left op (binary q o r)
  | right => binary left op right

section
variable {own a b : Option Level}

@[simp]
theorem leftNeedsParens_none : leftNeedsParens own none = false := by
  cases own <;> rfl

@[simp]
theorem rightNeedsParens_none : rightNeedsParens own none = false := by
  cases own <;> rfl

theorem leftNeedsParens_iff : leftNeedsParens own a = true ↔
    ∃ o ∈ own, ∃ l ∈ a, l.rank < o.rank := by
  cases own <;> cases a <;> simp [leftNeedsParens]

theorem rightNeedsParens_iff : rightNeedsParens own a = true ↔
    ∃ o ∈ own, ∃ r ∈ a, r.rank ≤ o.rank := by
  cases own <;> cases a <;> simp [rightNeedsParens]

/-- `a` is at least as loose as `b`, and no operand if `b` is none. -/
def NoTighter (a b : Option Level) : Prop :=
  ∀ l ∈ b, ∃ k ∈ a, k.rank ≤ l.rank

theorem NoTighter.refl : NoTighter a a :=
  fun l hl => ⟨l, hl, Nat.le_refl _⟩

theorem NoTighter.leftNeedsParens (h : NoTighter a b) (hb : leftNeedsParens own b = true) :
    leftNeedsParens own a = true := by
  obtain ⟨o, ho, l, hl, hlt⟩ := leftNeedsParens_iff.mp hb
  obtain ⟨k, hk, hle⟩ := h l hl
  exact leftNeedsParens_iff.mpr ⟨o, ho, k, hk, Nat.lt_of_le_of_lt hle hlt⟩

theorem NoTighter.rightNeedsParens (h : NoTighter a b) (hb : rightNeedsParens own b = true) :
    rightNeedsParens own a = true := by
  obtain ⟨o, ho, r, hr, hle'⟩ := rightNeedsParens_iff.mp hb
  obtain ⟨k, hk, hle⟩ := h r hr
  exact rightNeedsParens_iff.mpr ⟨o, ho, k, hk, Nat.le_trans hle hle'⟩

theorem noTighter_of_leftNeedsParens (h : leftNeedsParens own a = true) : NoTighter a own := by
  obtain ⟨o, ho, l, hl, hlt⟩ := leftNeedsParens_iff.mp h
  intro k hk
  cases Option.mem_unique ho hk
  exact ⟨l, hl, Nat.le_of_lt hlt⟩

theorem noTighter_of_rightNeedsParens (h : rightNeedsParens own a = true) : NoTighter a own := by
  obtain ⟨o, ho, r, hr, hle⟩ := rightNeedsParens_iff.mp h
  intro k hk
  cases Option.mem_unique ho hk
  exact ⟨r, hr, hle⟩

/-- Of two operators neither of which is the looser one on both sides. -/
theorem rightNeedsParens_eq_false (h : leftNeedsParens own a = true) :
    rightNeedsParens a own = false := by
  obtain ⟨o, rfl, l, rfl, hlt⟩ := leftNeedsParens_iff.mp h
  simpa [rightNeedsParens] using hlt

theorem leftNeedsParens_eq_false (h : rightNeedsParens own a = true) :
    leftNeedsParens a own = false := by
  obtain ⟨o, rfl, r, rfl, hle⟩ := rightNeedsParens_iff.mp h
  simpa [leftNeedsParens] using hle

end

theorem exists_eq_binary {e : Expr} {level : Level} (h : level ∈ e.level?) :
    ∃ left op right, e = binary left op right := by
  cases e with
  | binary left op right => exact ⟨left, op, right, rfl⟩
  | _ => cases h

section
variable {l q r : Expr} {op o : Char}

theorem attach_of_bare (h : leftNeedsParens (Level.of? op) l.level? = false) :
    l.attach op r = binary l op r := by
  cases l with
  | binary l o q =>
    have h : leftNeedsParens (Level.of? op) (Level.of? o) = false := h
    rw [attach, h]
    rfl
  | _ => rfl

/-- The operator of a looser tree stays at the top. -/
theorem attach_of_looser (h : leftNeedsParens (Level.of? op) (Level.of? o) = true) :
    (binary l o q).attach op r = binary l o
      (if rightNeedsParens (Level.of? o) q.level? then binary q op r else q.attach op r) := by
  rw [attach, if_pos h]

theorem prepend_of_bare (h : rightNeedsParens (Level.of? op) r.level? = false) :
    l.prepend op r = binary l op r := by
  cases r with
  | binary q o r =>
    have h : rightNeedsParens (Level.of? op) (Level.of? o) = false := h
    rw [prepend, h]
    rfl
  | _ => rfl

theorem prepend_of_looser (h : rightNeedsParens (Level.of? op) (Level.of? o) = true) :
    l.prepend op (binary q o r) = binary
      (if leftNeedsParens (Level.of? o) q.level? then binary l op q else l.prepend op q) o r := by
  rw [prepend, if_pos h]

theorem level?_attach : (l.attach op r).level? =
    if leftNeedsParens (Level.of? op) l.level? then l.level? else Level.of? op := by
  cases h : leftNeedsParens (Level.of? op) l.level? with
  | false =>
    rw [attach_of_bare h]
    rfl
  | true =>
    obtain ⟨_, -, _, hl, -⟩ := leftNeedsParens_iff.mp h
    obtain ⟨l, o, q, rfl⟩ := exists_eq_binary hl
    rw [attach_of_looser h]
    rfl

theorem level?_prepend : (l.prepend op r).level? =
    if rightNeedsParens (Level.of? op) r.level? then r.level? else Level.of? op := by
  cases h : rightNeedsParens (Level.of? op) r.level? with
  | false =>
    rw [prepend_of_bare h]
    rfl
  | true =>
    obtain ⟨_, -, _, hr, -⟩ := rightNeedsParens_iff.mp h
    obtain ⟨q, o, r, rfl⟩ := exists_eq_binary hr
    rw [prepend_of_looser h]
    rfl

theorem noTighter_attach : NoTighter (l.attach op r).level? (Level.of? op) := by
  rw [level?_attach]
  split
  · exact noTighter_of_leftNeedsParens ‹_›
  · exact .refl

theorem noTighter_prepend : NoTighter (l.prepend op r).level? (Level.of? op) := by
  rw [level?_prepend]
  split
  · exact noTighter_of_rightNeedsParens ‹_›
  · exact .refl

/-! ## What grouping anew keeps -/

theorem chars_binary : (binary l op r).chars =
    parens (leftNeedsParens (Level.of? op) l.level?) l.chars ++ [' ', op, ' ']
      ++ parens (rightNeedsParens (Level.of? op) r.level?) r.chars := rfl

theorem chars_attach_of_bare (h : leftNeedsParens (Level.of? op) l.level? = false) :
    (l.attach op r).chars = l.chars ++ [' ', op, ' ']
      ++ parens (rightNeedsParens (Level.of? op) r.level?) r.chars := by
  rw [attach_of_bare h, chars_binary, h]
  rfl

theorem chars_prepend_of_bare (h : rightNeedsParens (Level.of? op) r.level? = false) :
    (l.prepend op r).chars =
      parens (leftNeedsParens (Level.of? op) l.level?) l.chars ++ [' ', op, ' '] ++ r.chars := by
  rw [prepend_of_bare h, chars_binary, h]
  rfl

theorem chars_attach : (l.attach op r).chars = l.chars ++ [' ', op, ' ']
    ++ parens (rightNeedsParens (Level.of? op) r.level?) r.chars := by
  induction l with
  | binary l o q _ ih =>
    cases h : leftNeedsParens (Level.of? op) (Level.of? o) with
    | false => exact chars_attach_of_bare h
    | true =>
      rw [attach_of_looser h]
      cases hq : rightNeedsParens (Level.of? o) q.level? with
      | false =>
        have hbare : rightNeedsParens (Level.of? o) (q.attach op r).level? = false := by
          rw [level?_attach]
          split
          · exact hq
          · exact rightNeedsParens_eq_false h
        rw [if_neg Bool.false_ne_true, chars_binary, hbare, ih, chars_binary, hq]
        simp [parens]
      | true =>
        -- Parentheses under the looser operator `o` are needed under `op` as well.
        have hleft : leftNeedsParens (Level.of? op) q.level? = true :=
          (noTighter_of_rightNeedsParens hq).leftNeedsParens h
        have hbare : rightNeedsParens (Level.of? o) (binary q op r).level? = false :=
          rightNeedsParens_eq_false h
        rw [if_pos rfl, chars_binary, hbare, chars_binary, hleft, chars_binary, hq]
        simp [parens]
  | _ => exact chars_attach_of_bare leftNeedsParens_none

theorem chars_prepend : (l.prepend op r).chars =
    parens (leftNeedsParens (Level.of? op) l.level?) l.chars ++ [' ', op, ' '] ++ r.chars := by
  induction r with
  | binary q o r ih _ =>
    cases h : rightNeedsParens (Level.of? op) (Level.of? o) with
    | false => exact chars_prepend_of_bare h
    | true =>
      rw [prepend_of_looser h]
      cases hq : leftNeedsParens (Level.of? o) q.level? with
      | false =>
        have hbare : leftNeedsParens (Level.of? o) (l.prepend op q).level? = false := by
          rw [level?_prepend]
          split
          · exact hq
          · exact leftNeedsParens_eq_false h
        rw [if_neg Bool.false_ne_true, chars_binary, hbare, ih, chars_binary, hq]
        simp [parens]
      | true =>
        have hright : rightNeedsParens (Level.of? op) q.level? = true :=
          (noTighter_of_leftNeedsParens hq).rightNeedsParens h
        have hbare : leftNeedsParens (Level.of? o) (binary l op q).level? = false :=
          leftNeedsParens_eq_false h
        rw [if_pos rfl, chars_binary, hbare, chars_binary, hright, chars_binary, hq]
        simp [parens]
  | _ => exact chars_prepend_of_bare rightNeedsParens_none

theorem isWritable_binary : (binary l op r).IsWritable ↔
    (Level.of? op).isSome ∧ l.IsWritable ∧ r.IsWritable :=
  Iff.rfl

theorem isWritable_attach : (l.attach op r).IsWritable ↔ (binary l op r).IsWritable := by
  induction l with
  | binary l o q _ ih =>
    cases h : leftNeedsParens (Level.of? op) (Level.of? o) with
    | false => rw [attach_of_bare h]
    | true =>
      rw [attach_of_looser h]
      split <;> simp only [isWritable_binary, ih] <;> grind
  | _ => rw [attach_of_bare leftNeedsParens_none]

theorem isWritable_prepend : (l.prepend op r).IsWritable ↔ (binary l op r).IsWritable := by
  induction r with
  | binary q o r ih _ =>
    cases h : rightNeedsParens (Level.of? op) (Level.of? o) with
    | false => rw [prepend_of_bare h]
    | true =>
      rw [prepend_of_looser h]
      split <;> simp only [isWritable_binary, ih] <;> grind
  | _ => rw [prepend_of_bare rightNeedsParens_none]

theorem size_returned_attach :
    (l.attach op r).returned.size = (binary l op r).returned.size := by
  induction l with
  | binary l o q _ ih =>
    cases h : leftNeedsParens (Level.of? op) (Level.of? o) with
    | false => rw [attach_of_bare h]
    | true =>
      rw [attach_of_looser h]
      simp only [returned_binary, size] at ih ⊢
      split <;> simp only [returned_binary, size, ih] <;> omega
  | _ => rw [attach_of_bare leftNeedsParens_none]

theorem size_returned_prepend :
    (l.prepend op r).returned.size = (binary l op r).returned.size := by
  induction r with
  | binary q o r ih _ =>
    cases h : rightNeedsParens (Level.of? op) (Level.of? o) with
    | false => rw [prepend_of_bare h]
    | true =>
      rw [prepend_of_looser h]
      simp only [returned_binary, size] at ih ⊢
      split <;> simp only [returned_binary, size, ih] <;> omega
  | _ => rw [prepend_of_bare rightNeedsParens_none]

/-! ## That grouping anew makes another tree -/

/-- A looser operator is another operator. -/
theorem returned_attach_ne {l' r' : Expr} (h : leftNeedsParens (Level.of? op) l.level? = true) :
    (l.attach op r).returned ≠ binary l' op r' := by
  obtain ⟨_, -, _, hl, -⟩ := leftNeedsParens_iff.mp h
  obtain ⟨l, o, q, rfl⟩ := exists_eq_binary hl
  rw [attach_of_looser h, returned_binary]
  intro heq
  obtain ⟨-, rfl, -⟩ := binary.inj heq
  obtain ⟨k, hk, k', hk', hlt⟩ := leftNeedsParens_iff.mp h
  cases Option.mem_unique hk hk'
  exact Nat.lt_irrefl _ hlt

/-- The right operand has become smaller, if the operator is the same one. -/
theorem returned_prepend_ne {l' r' : Expr} (h : rightNeedsParens (Level.of? op) r.level? = true)
    (hsize : r.returned.size = r'.size) :
    (l.prepend op r).returned ≠ binary l' op r' := by
  obtain ⟨_, -, _, hr, -⟩ := rightNeedsParens_iff.mp h
  obtain ⟨q, o, r, rfl⟩ := exists_eq_binary hr
  rw [prepend_of_looser h, returned_binary]
  intro heq
  obtain ⟨-, -, rfl⟩ := binary.inj heq
  simp only [returned_binary, size] at hsize
  omega

end

/--
A tree that is written as another one with a pair of parentheses less. It is no tighter than the
other one, so that it stands in parentheses wherever that one does.
-/
structure Regroups (e' e : Expr) : Prop where
  noTighter : NoTighter e'.level? e.level?
  isWritable : e.IsWritable → e'.IsWritable
  size_eq : e'.returned.size = e.returned.size
  ne : e'.returned ≠ e.returned

section
variable {function : String} {e e' l l' r r' : Expr} {op : Char}

theorem Regroups.argument (h : Regroups e' e) :
    Regroups (call function e') (call function e) where
  noTighter := .refl
  isWritable hw := ⟨hw.1, h.isWritable hw.2⟩
  size_eq := by simp only [returned_call, size, h.size_eq]
  ne heq := h.ne (call.inj heq).2

theorem Regroups.left (h : Regroups l' l) : Regroups (binary l' op r) (binary l op r) where
  noTighter := .refl
  isWritable hw := ⟨hw.1, h.isWritable hw.2.1, hw.2.2⟩
  size_eq := by simp only [returned_binary, size, h.size_eq]
  ne heq := h.ne (binary.inj heq).1

theorem Regroups.right (h : Regroups r' r) : Regroups (binary l op r') (binary l op r) where
  noTighter := .refl
  isWritable hw := ⟨hw.1, hw.2.1, h.isWritable hw.2.2⟩
  size_eq := by simp only [returned_binary, size, h.size_eq]
  ne heq := h.ne (binary.inj heq).2.2

theorem regroups_attach (h : leftNeedsParens (Level.of? op) l.level? = true) :
    Regroups (l.attach op r) (binary l op r) :=
  ⟨noTighter_attach, isWritable_attach.mpr, size_returned_attach, returned_attach_ne h⟩

theorem regroups_prepend (h : rightNeedsParens (Level.of? op) r.level? = true) :
    Regroups (l.prepend op r) (binary l op r) :=
  ⟨noTighter_prepend, isWritable_prepend.mpr, size_returned_prepend, returned_prepend_ne h rfl⟩

/-- The left operand may have become looser than the operator, and is then open to it. -/
theorem Regroups.attach (h : Regroups l' l) : Regroups (l'.attach op r) (binary l op r) where
  noTighter := noTighter_attach
  isWritable hw := isWritable_attach.mpr (h.left.isWritable hw)
  size_eq := size_returned_attach.trans h.left.size_eq
  ne := by
    cases hparens : leftNeedsParens (Level.of? op) l'.level? with
    | true => exact returned_attach_ne hparens
    | false =>
      rw [attach_of_bare hparens]
      exact h.left.ne

theorem Regroups.prepend (h : Regroups r' r) : Regroups (l.prepend op r') (binary l op r) where
  noTighter := noTighter_prepend
  isWritable hw := isWritable_prepend.mpr (h.right.isWritable hw)
  size_eq := size_returned_prepend.trans h.right.size_eq
  ne := by
    cases hparens : rightNeedsParens (Level.of? op) r'.level? with
    | true => exact returned_prepend_ne hparens h.size_eq
    | false =>
      rw [prepend_of_bare hparens]
      exact h.right.ne

end

/-- The text without a pair of parentheses is the text of the operators grouped anew. -/
theorem PrintsParens.exists_regroups {e : Expr} {before inside after : List Char}
    (h : e.PrintsParens before inside after) :
    ∃ e', e'.chars = before ++ inside ++ after ∧ Regroups e' e := by
  induction h with
  | @left l r op h =>
    refine ⟨l.attach op r, ?_, regroups_attach h⟩
    rw [chars_attach]
    simp
  | @right l r op h =>
    refine ⟨l.prepend op r, ?_, regroups_prepend h⟩
    rw [chars_prepend]
    simp
  | @inLeft l r op before inside after _ ih =>
    obtain ⟨l', hchars, hl⟩ := ih
    cases hparens : leftNeedsParens (Level.of? op) l.level? with
    | true =>
      refine ⟨binary l' op r, ?_, hl.left⟩
      rw [chars_binary, hl.noTighter.leftNeedsParens hparens, hchars, parens_eq]
      simp
    | false =>
      refine ⟨l'.attach op r, ?_, hl.attach⟩
      rw [chars_attach, hchars]
      simp [opening, closing]
  | @inRight l r op before inside after _ ih =>
    obtain ⟨r', hchars, hr⟩ := ih
    cases hparens : rightNeedsParens (Level.of? op) r.level? with
    | true =>
      refine ⟨binary l op r', ?_, hr.right⟩
      rw [chars_binary, hr.noTighter.rightNeedsParens hparens, hchars, parens_eq true]
      simp
    | false =>
      refine ⟨l.prepend op r', ?_, hr.prepend⟩
      rw [chars_prepend, hchars]
      simp [opening, closing]
  | @inArgument function argument before inside after _ ih =>
    obtain ⟨argument', hchars, hargument⟩ := ih
    refine ⟨call function argument', ?_, hargument.argument⟩
    rw [chars, hchars]
    simp

end Expr

/-- The text of a tree reads back, its literals and the ends of its columns' names read anew. -/
theorem parse_of_isWritable {e : Expr} (h : e.IsWritable) :
    Expr.parse (.ofList e.chars) = .ok e.returned :=
  expr_parse_text (fun _ => Expr.isValue_column_returned) h

/--
Every pair of parentheses that is printed around an operand is needed: the text of the tree without
that pair reads as another tree than the text with it.
-/
theorem printed_parens_needed {e : Expr} (he : e.IsWritable) {before inside after : List Char}
    (h : e.PrintsParens before inside after) :
    e.chars = before ++ '(' :: inside ++ ')' :: after ∧
    ∃ full bare, Expr.parse (.ofList (before ++ '(' :: inside ++ ')' :: after)) = .ok full ∧
      Expr.parse (.ofList (before ++ inside ++ after)) = .ok bare ∧ bare ≠ full := by
  obtain ⟨e', hchars, hregroups⟩ := h.exists_regroups
  refine ⟨h.chars_eq, e.returned, e'.returned, ?_, ?_, hregroups.ne⟩
  · rw [← h.chars_eq]
    exact parse_of_isWritable he
  · rw [← hchars]
    exact parse_of_isWritable (hregroups.isWritable he)

/--
Without the pair, `b` multiplies the row alone and the difference comes first. The parentheses of
negative infinity belong to its literal, and the space is not part of the name that is read.
-/
theorem printed_parens_needed_product :
    let e : Expr := .binary (.literal (-1.0 / 0.0)) '-'
      (.binary (.binary (.column "a ") '+' .row) '*' (.constant "b"))
    e.IsWritable ∧ e.text = "(0 - inf) - ($a $ + #) * b" ∧
      ∃ before inside after, e.PrintsParens before inside after ∧
        String.ofList (before ++ inside ++ after) = "(0 - inf) - $a $ + # * b" ∧
        ∃ full bare, Expr.parse e.text = .ok full ∧
          Expr.parse "(0 - inf) - $a $ + # * b" = .ok bare ∧ bare ≠ full := by
  intro e
  have ha : IsRun isColumnStart isColumnPart "a ".toList :=
    ⟨by decide, List.all_eq_true.mp (by decide)⟩
  have hb : IsIdentifier "b".toList := ⟨by decide, List.all_eq_true.mp (by decide)⟩
  have he : e.IsWritable := ⟨by decide, trivial, by decide, ⟨by decide, ha, trivial⟩, hb⟩
  have hpair : e.PrintsParens _ _ _ := .inRight (.left (by decide))
  obtain ⟨hchars, full, bare, hfull, hbare, hne⟩ := printed_parens_needed he hpair
  rw [← hchars] at hfull
  exact ⟨he, by decide +kernel, _, _, _, hpair, by decide +kernel, full, bare, hfull, hbare, hne⟩

end ColumnCalc
