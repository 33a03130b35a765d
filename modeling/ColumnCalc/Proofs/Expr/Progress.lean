import ColumnCalc.Proofs.Expr.Reading

/-!
# How far reading goes

Whatever part of the parser succeeds, it leaves a proper part of its text, the end of it without
blanks in front (`Consumes`). Behind an expression of a level no operator of this level or of a
tighter one comes next (`Settled`): a chain takes all of its own operators, and its last operand has
taken the tighter ones.
-/

namespace ColumnCalc

open Text Grammar
open ColumnCalc.Parser (Upto Within)

/-- What is left is an end of the text, not all of it, and does not begin with a blank. -/
structure Consumes (s r : List Char) : Prop where
  front : ∃ front, front ≠ [] ∧ s = front ++ r
  blank : ∀ c ∈ r.head?, isBlank c = false

/-- Neither a blank nor an operator of the level or of a tighter one comes next. -/
structure Settled (level : Option Level) (r : List Char) : Prop where
  blank : ∀ c ∈ r.head?, isBlank c = false
  spent : ∀ own ∈ level, ∀ l : Level, own.rank ≤ l.rank → ∀ c ∈ r.head?, c ∉ l.operators

/-- A parser that goes on as long as its level does. -/
def Settles {domain : List Char → Prop} (level : Option Level)
    (p : (s : List Char) → domain s → Parser.Result s) : Prop :=
  ∀ s h e r, Reads (p s h) e r → Settled level r

theorem settled_skipBlank (r : List Char) : Settled none (skipBlank r) :=
  ⟨head?_skipBlank r, fun _ hown => nomatch hown⟩

theorem Settled.looser {own : Level} {r : List Char} (h : Settled own.tighter r)
    (hown : ∀ c ∈ r.head?, c ∉ own.operators) : Settled (some own) r := by
  refine ⟨h.blank, fun _ hsome l hle => ?_⟩
  cases hsome
  by_cases hl : l = own
  · rw [hl]
    exact hown
  · obtain ⟨next, hnext, hrank⟩ : ∃ next ∈ own.tighter, next.rank ≤ l.rank := by
      revert hle hl
      cases own <;> cases l <;> simp [Level.tighter, Level.rank]
    exact h.spent next hnext l hrank

/-! ## Operands -/

section
variable {s r : List Char} {e : Expr} {inner : Within s} {form : Unit → Parser.Result s}

/-- Every form skips the blanks behind it. -/
theorem settled_of_mem_forms (hform : form ∈ Parser.forms s inner) (h : Reads (form ()) e r) :
    Settled none r := by
  simp only [Parser.forms, List.mem_cons, List.not_mem_nil, or_false] at hform
  obtain rfl | rfl | rfl | rfl | rfl | rfl := hform
  · obtain ⟨_, _, _, _, _, _, _, -, -, -, -, -, rfl⟩ := reads_call_iff.mp h
    exact settled_skipBlank _
  · obtain ⟨_, _, _, _, -, -, -, rfl⟩ := reads_column_iff.mp h
    exact settled_skipBlank _
  · obtain ⟨_, _, -, -, rfl⟩ := reads_literal_iff.mp h
    exact settled_skipBlank _
  · obtain ⟨_, -, -, rfl⟩ := reads_row_iff.mp h
    exact settled_skipBlank _
  · obtain ⟨_, _, _, _, -, -, -, rfl⟩ := reads_parenthesized_iff.mp h
    exact settled_skipBlank _
  · obtain ⟨_, _, -, -, rfl⟩ := reads_constant_iff.mp h
    exact settled_skipBlank _

theorem settled_operand (h : Reads (Parser.operand s inner) e r) : Settled none r := by
  obtain ⟨form, hmem, hform⟩ := exists_form_of_reads_operand h
  exact settled_of_mem_forms hmem hform

end

/-! ## Chains -/

section
variable {n : Nat} {level : Level} {p : Upto n}

theorem settled_operations (hp : Settles level.tighter p) {s r : List Char} {left e : Expr}
    {h : s.length ≤ n} (hs : Settled level.tighter s)
    (hpass : Passes (Parser.operations level.operators p left s h) e r) :
    Settled (some level) r := by
  obtain ⟨hstop, -, rfl⟩ | ⟨op, r₁, right, r₂, h₁, h₂, -, rfl, hright, hmore⟩ :=
    passes_operations_iff.mp hpass
  · exact hs.looser (oneOf?_eq_none_iff.mp hstop)
  · have hlt := hright.length_lt_cons op
    exact settled_operations hp (hp _ _ _ _ hright) hmore
termination_by s.length

theorem settles_chain (hp : Settles level.tighter p) :
    Settles (some level) (Parser.chain level.operators p) := by
  intro s h e r hreads
  obtain ⟨first, r₁, h₁, hfirst, hrest⟩ := reads_chain_iff.mp hreads
  exact settled_operations hp (hp _ _ _ _ hfirst) hrest

theorem settles_level (hp : Settles none p) (level : Level) :
    Settles (some level) (Parser.level p level) :=
  level_of_chain (P := fun level p => Settles level p) (fun _ _ hp => settles_chain hp) hp level

end

/-! ## What is left -/

section
variable {level : Option Level} {s r : List Char} {e : Expr}

theorem Starts.consumes (h : Starts level s e r) (hr : Settled level r) : Consumes s r := by
  obtain ⟨t, b, ht, -, rfl⟩ := h
  obtain ⟨c, t, rfl, -⟩ := isValue_head ht
  exact ⟨⟨c :: t ++ b, List.cons_ne_nil _ _, rfl⟩, hr.blank⟩

theorem consumes_skipBlank {t : List Char} (ht : t ≠ []) : Consumes (t ++ r) (skipBlank r) := by
  obtain ⟨b, -, hr⟩ := exists_skipBlank r
  refine ⟨⟨t ++ b, List.append_ne_nil_of_left_ne_nil ht b, ?_⟩, head?_skipBlank r⟩
  rw [List.append_assoc, ← hr]

/-- A name is taken with the blanks behind it. -/
theorem consumes_identifier {name : List Char} (h : Reads (Parser.identifier s) name r) :
    Consumes s (skipBlank r) := by
  obtain ⟨hname, rfl⟩ := isIdentifier_of_identifier h
  obtain ⟨c, t, rfl, -⟩ := isRun_head hname
  exact consumes_skipBlank (List.cons_ne_nil c t)

theorem consumes_target {name : List Char} (h : Parser.target? s = some (name, r)) :
    Consumes s r := by
  obtain ⟨b, r', -, -, rfl, rfl⟩ := target?_eq_some_iff.mp h
  have hs : name ++ (b ++ '=' :: r') = name ++ b ++ ['='] ++ r' := by simp
  rw [hs]
  exact consumes_skipBlank (List.append_ne_nil_of_right_ne_nil _ (List.cons_ne_nil _ _))

end

end ColumnCalc
