import ColumnCalc.Proofs.Expr.Operands

/-!
# Chains of operators

The parser of a level takes operators as long as it finds any, the grammar of a level takes a chain
apart at its last operator. Both have the same texts with the same trees, provided that the parser
of the operands is right.

* `Sound`: what a parser reads is an expression of the level.
* `Complete`: an expression of the level is read as a whole if what stands behind it may follow the
  level (`Follows`).
-/

namespace ColumnCalc

open Text Grammar
open ColumnCalc.Parser (Upto)

/-! ## What follows an expression -/

/--
What may stand behind an expression of a level and the blanks after it: nothing, a closing
parenthesis or an operator of a looser level; behind an operand any operator.
-/
def Follows (level : Option Level) (r : List Char) : Prop :=
  ∀ c ∈ r.head?, c = ')' ∨ ∃ l : Level, c ∈ l.operators ∧ ∀ own ∈ level, l.rank < own.rank

namespace Follows

variable {level : Option Level} {own : Level} {r : List Char}

theorem nil : Follows level [] := by
  intro c h
  cases h

theorem closing : Follows level (')' :: r) := by
  intro c h
  cases h
  exact .inl rfl

theorem operator {op : Char} (hop : op ∈ own.operators) : Follows own.tighter (op :: r) := by
  intro c h
  cases h
  refine .inr ⟨own, hop, fun l hl => ?_⟩
  cases own <;> cases hl <;> decide

theorem tighter (h : Follows (some own) r) : Follows own.tighter r := by
  intro c hc
  refine (h c hc).imp_right ?_
  rintro ⟨l, hl, hrank⟩
  have hlt := hrank own rfl
  refine ⟨l, hl, fun t ht => Nat.lt_trans hlt ?_⟩
  cases own <;> cases ht <;> decide

/-- A level does not go on with what follows it. -/
theorem not_mem_operators (h : Follows (some own) r) : ∀ c ∈ r.head?, c ∉ own.operators := by
  intro c hc hown
  rcases h c hc with rfl | ⟨l, hl, hrank⟩
  · cases own <;> exact absurd hown (by decide)
  · have hl := Level.of?_eq_some_iff.mpr hl
    rw [Level.of?_eq_some_iff.mpr hown] at hl
    cases hl
    exact Nat.lt_irrefl _ (hrank own rfl)

theorem ne_of_mem_head? {c d : Char} (h : Follows level r) (hc : c ∈ r.head?) (hd : d ≠ ')')
    (hop : Level.of? d = none) : c ≠ d := by
  rintro rfl
  rcases h c hc with rfl | ⟨l, hl, -⟩
  · exact hd rfl
  · rw [Level.of?_eq_some_iff.mpr hl] at hop
    cases hop

theorem breaks (h : Follows level r) : Breaks r := by
  intro c hc
  rcases h c hc with rfl | ⟨l, hl, -⟩
  · decide
  · exact .of_mem_operators hl

theorem skipBlank_eq (h : Follows level r) : skipBlank r = r := by
  cases r with
  | nil => rfl
  | cons c r =>
    refine skipBlank_cons ?_
    rcases h c rfl with rfl | ⟨l, hl, -⟩
    · decide
    · exact isBlank_of_mem_operators hl

end Follows

/-! ## The two directions -/

/-- The text starts with an expression of the level; blanks stand between it and the rest. -/
def Starts (level : Option Level) (s : List Char) (e : Expr) (r : List Char) : Prop :=
  ∃ t b, IsValue level t e ∧ IsBlanks b ∧ s = t ++ b ++ r

section
variable {domain : List Char → Prop}

/-- A parser that reads nothing but expressions of the level. -/
def Sound (level : Option Level) (p : (s : List Char) → domain s → Parser.Result s) : Prop :=
  ∀ s h e r, Reads (p s h) e r → Starts level s e r

/-- A parser that reads every expression of the level, with the blanks behind it. -/
def Complete (level : Option Level) (p : (s : List Char) → domain s → Parser.Result s) : Prop :=
  ∀ s h e r, Starts level s e r → Follows level r → Reads (p s h) e r

end

theorem skipBlank_eq_self {level : Option Level} {t r : List Char} {e : Expr}
    (h : IsValue level t e) : skipBlank (t ++ r) = t ++ r := by
  obtain ⟨c, t, rfl, hc⟩ := isValue_head h
  exact skipBlank_cons hc

theorem Starts.suffix {level : Option Level} {s r : List Char} {e : Expr}
    (h : Starts level s e r) : r <:+ s := by
  obtain ⟨t, b, -, -, rfl⟩ := h
  exact List.suffix_append _ _

/-! ## Chains -/

section
variable {n : Nat} {operators s r : List Char} {p : Upto n} {left e : Expr} {h : s.length ≤ n}

/-- Operations stop where no operator stands, and otherwise go on behind the next operand. -/
theorem passes_operations_iff :
    Passes (Parser.operations operators p left s h) e r ↔
      (Scan.oneOf? operators s = none ∧ e = left ∧ r = s) ∨
      ∃ op r₁ right r₂ h₁ h₂, op ∈ operators ∧ s = op :: r₁ ∧
        Reads (p (skipBlank r₁) h₁) right r₂ ∧
        Passes (Parser.operations operators p (.binary left op right) r₂ h₂) e r := by
  rw [Parser.operations]
  constructor
  · rintro ⟨hle, h⟩
    split at h
    · rename_i hop
      cases h
      exact .inl ⟨hop, rfl, rfl⟩
    · rename_i op hop
      obtain ⟨hmem, hs⟩ := oneOf?_eq_some_iff.mp hop
      obtain ⟨right, hright, h⟩ := bind_eq_ok_iff.mp h
      obtain ⟨⟨⟨e', r'⟩, hle'⟩, hmore, h⟩ := bind_eq_ok_iff.mp h
      cases h
      exact .inr ⟨op.value, op.rest, right.value, right.rest, _, _, hmem, hs, .of_eq_ok hright,
        .of_eq_ok hmore⟩
  · rintro (⟨hop, rfl, rfl⟩ | ⟨op, r₁, right, r₂, h₁, h₂, hmem, rfl, ⟨hlt, hright⟩, ⟨hle, hmore⟩⟩)
    · rw [hop]
      exact ⟨Nat.le_refl _, rfl⟩
    · have hop : Scan.oneOf? operators (op :: r₁) = some ⟨op, r₁, Nat.lt_succ_self _⟩ :=
        oneOf?_eq_some_iff.mpr ⟨hmem, rfl⟩
      have hlen := length_skipBlank_le r₁
      have hle' : r.length ≤ (op :: r₁).length := by
        simp only [List.length_cons] at hle ⊢
        omega
      refine ⟨hle', ?_⟩
      simp only [hop, Parsed.skipBlank, hright, hmore, bind, Except.bind]
      rfl

theorem reads_chain_iff :
    Reads (Parser.chain operators p s h) e r ↔
      ∃ first r₁ h₁, Reads (p s h) first r₁ ∧
        Passes (Parser.operations operators p first r₁ h₁) e r := by
  unfold Parser.chain
  constructor
  · intro hreads
    obtain ⟨first, r₁, _, hfirst, hlt, hall⟩ := hreads.of_bind
    obtain ⟨⟨⟨e', r'⟩, hle⟩, hops, heq⟩ := bind_eq_ok_iff.mp hall
    cases heq
    exact ⟨first, r₁, _, hfirst, .of_eq_ok hops⟩
  · rintro ⟨first, r₁, h₁, hfirst, hle, hall⟩
    refine hfirst.bind fun hlt => ⟨Nat.lt_of_le_of_lt hle hlt, ?_⟩
    simp only [hall, bind, Except.bind]
    rfl

end

section
variable {n : Nat} {level : Level} {p : Upto n}

/-- Each operation adds one more operand at the right end of what was read before it. -/
theorem sound_operations (hp : Sound level.tighter p) {s t b r : List Char} {left e : Expr}
    {h : s.length ≤ n} (ht : IsValue (some level) t left) (hb : IsBlanks b)
    (hpass : Passes (Parser.operations level.operators p left s h) e r) :
    Starts (some level) (t ++ b ++ s) e r := by
  obtain ⟨-, rfl, rfl⟩ | ⟨op, r₁, right, r₂, h₁, h₂, hop, rfl, hright, hmore⟩ :=
    passes_operations_iff.mp hpass
  · exact ⟨t, b, ht, hb, rfl⟩
  · obtain ⟨b₁, hb₁, hr₁⟩ := exists_skipBlank r₁
    obtain ⟨u, b₂, hu, hb₂, hsplit⟩ := hp _ _ _ _ hright
    have hlt := hright.length_lt_cons op
    have hs : t ++ b ++ op :: r₁ = t ++ b ++ op :: (b₁ ++ u) ++ b₂ ++ r₂ := by
      rw [hr₁, hsplit]
      simp
    rw [hs]
    exact sound_operations hp (.binary ht hb hop hb₁ hu) hb₂ hmore
termination_by s.length

theorem sound_chain (hp : Sound level.tighter p) :
    Sound (some level) (Parser.chain level.operators p) := by
  intro s h e r hreads
  obtain ⟨first, r₁, h₁, hfirst, hrest⟩ := reads_chain_iff.mp hreads
  obtain ⟨t, b, ht, hb, rfl⟩ := hp _ _ _ _ hfirst
  exact sound_operations hp (.lift ht) hb hrest

/--
A chain reads an expression of its level and goes on from there with the operations behind it. The
induction follows the grammar, which takes a chain apart at its last operator.
-/
theorem reads_chain_of_isValue (hp : Complete level.tighter p) {t : List Char} {e : Expr}
    (ht : IsValue (some level) t e) :
    ∀ {b r s r' : List Char} {e' : Expr} {h : s.length ≤ n} {h' : r.length ≤ n},
      IsBlanks b → Follows level.tighter r → s = t ++ b ++ r →
      Passes (Parser.operations level.operators p e r h') e' r' →
      Reads (Parser.chain level.operators p s h) e' r' := by
  generalize hown : some level = own at ht
  induction ht with
  | lift ht _ =>
    cases hown
    intro b r s r' e' h h' hb hr hs hpass
    exact reads_chain_iff.mpr ⟨_, r, h', hp _ _ _ _ ⟨_, b, ht, hb, hs⟩ hr, hpass⟩
  | @binary _ _ b₁ b₂ t _ right op _ hb₁ hop hb₂ ht ih _ =>
    cases hown
    intro b r s r' e' h h' hb hr hs hpass
    have hskip : skipBlank (b₂ ++ (t ++ b ++ r)) = t ++ b ++ r := by
      rw [skipBlank_append hb₂, List.append_assoc, skipBlank_eq_self ht]
    have hlen : (op :: (b₂ ++ (t ++ b ++ r))).length ≤ n := by
      rw [hs] at h
      simp only [List.length_append, List.length_cons] at h ⊢
      omega
    have hshort : (skipBlank (b₂ ++ (t ++ b ++ r))).length ≤ n :=
      Nat.le_trans (length_skipBlank_le _) (Nat.le_of_succ_le hlen)
    have hright : Reads (p (skipBlank (b₂ ++ (t ++ b ++ r))) hshort) right r :=
      hp _ _ _ _ ⟨t, b, ht, hb, hskip⟩ hr
    have hmore : Passes (Parser.operations _ p _ (op :: (b₂ ++ (t ++ b ++ r))) hlen) e' r' :=
      passes_operations_iff.mpr (.inr ⟨op, _, right, r, hshort, h', hop, rfl, hright, hpass⟩)
    exact ih rfl hb₁ (.operator hop) (by rw [hs]; simp) hmore
  | call => cases hown
  | column => cases hown
  | literal => cases hown
  | row => cases hown
  | parens => cases hown
  | constant => cases hown

theorem complete_chain (hp : Complete level.tighter p) :
    Complete (some level) (Parser.chain level.operators p) := by
  rintro s h e r ⟨t, b, ht, hb, rfl⟩ hr
  have hlen : r.length ≤ n := by
    simp only [List.length_append] at h
    omega
  have hstop : Passes (Parser.operations level.operators p e r hlen) e r :=
    passes_operations_iff.mpr (.inl ⟨oneOf?_eq_none_iff.mpr hr.not_mem_operators, rfl, rfl⟩)
  exact reads_chain_of_isValue hp ht hb hr.tighter rfl hstop

end

/-- What chains carry over from their operands to themselves holds at each level. -/
theorem level_of_chain {n : Nat} {P : Option Level → Upto n → Prop} {p : Upto n}
    (hchain : ∀ (level : Level) (p : Upto n), P level.tighter p →
      P (some level) (Parser.chain level.operators p))
    (hp : P none p) (level : Level) : P (some level) (Parser.level p level) := by
  have hexponential := hchain .exponential p hp
  have hmultiplicative := hchain .multiplicative _ hexponential
  have hadditive := hchain .additive _ hmultiplicative
  cases level with
  | additive => exact hadditive
  | multiplicative => exact hmultiplicative
  | exponential => exact hexponential

/-- An operand is the whole expression of each level if no operator stands behind it. -/
theorem reads_level_of_operand {n : Nat} {p : Upto n} {s r : List Char} {e : Expr}
    {h : s.length ≤ n} (hp : Reads (p s h) e r) (hr : ∀ c ∈ r.head?, Level.of? c = none)
    (level : Level) : Reads (Parser.level p level s h) e r := by
  refine level_of_chain (P := fun _ p => Reads (p s h) e r) (fun level p hp => ?_) hp level
  have hlen : r.length ≤ n := by
    obtain ⟨hlt, -⟩ := hp
    omega
  have hstop : ∀ c ∈ r.head?, c ∉ level.operators := by
    intro c hc hop
    have := hr c hc
    rw [Level.of?_eq_some_iff.mpr hop] at this
    cases this
  exact reads_chain_iff.mpr ⟨e, r, hlen, hp,
    passes_operations_iff.mpr (.inl ⟨oneOf?_eq_none_iff.mpr hstop, rfl, rfl⟩)⟩

theorem sound_level {n : Nat} {p : Upto n} (hp : Sound none p) (level : Level) :
    Sound (some level) (Parser.level p level) :=
  level_of_chain (P := fun level p => Sound level p) (fun _ _ hp => sound_chain hp) hp level

theorem complete_level {n : Nat} {p : Upto n} (hp : Complete none p) (level : Level) :
    Complete (some level) (Parser.level p level) :=
  level_of_chain (P := fun level p => Complete level p) (fun _ _ hp => complete_chain hp) hp level

end ColumnCalc
