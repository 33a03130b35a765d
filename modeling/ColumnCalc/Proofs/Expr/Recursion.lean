import ColumnCalc.Proofs.Expr.Progress
import Mathlib.Logic.Function.Iterate
import Mathlib.Logic.Relation

/-!
# The recursion of the parser

The parser of a level calls that of the next tighter level, first on its own text and then behind
each operator that it finds; the parser of operands calls that of whole expressions behind a
parenthesis. Each call has a shorter text than its caller or the same text and a tighter level, so
the recursion ends.

* `Parser.body f`: what the parser does with the answers `f` to its calls. `Parser.Calls f x y`:
  with these answers, a parser called with `x` makes the call `y`.
* `body_congr`: no other call has a say. `Calls.lex`: the calls decrease.
* `iterate_body`: the parser is what its body makes of any answers at all, if it is applied often
  enough.
* `Parser.Consuming`, `Parser.Descending`, `Parser.Ending`: what the parsers take of a text, how
  their calls decrease, and that the calls decide the result (`parser_progress`).
-/

namespace ColumnCalc

open Text Grammar
open ColumnCalc.Parser (Upto Within)

/-! ## Turns of a chain -/

/-- In one turn, an operator and its right operand join what was read before them. -/
def Turn (operators : List Char) (p : (t : List Char) → Parser.Result t)
    (x y : Expr × List Char) : Prop :=
  ∃ op r right, op ∈ operators ∧ x.2 = op :: r ∧ Reads (p (skipBlank r)) right y.2 ∧
    y.1 = .binary x.1 op right

/-- Any number of turns. -/
abbrev Turns (operators : List Char) (p : (t : List Char) → Parser.Result t) :
    Expr × List Char → Expr × List Char → Prop :=
  Relation.ReflTransGen (Turn operators p)

section
variable {operators : List Char} {p q : (t : List Char) → Parser.Result t}
  {x y : Expr × List Char} {n m : Nat}

theorem Turn.length_lt (h : Turn operators p x y) : y.2.length < x.2.length := by
  obtain ⟨op, r, right, -, hx, hright, -⟩ := h
  rw [hx]
  exact hright.length_lt_cons op

theorem Turns.length_le (h : Turns operators p x y) : y.2.length ≤ x.2.length := by
  induction h with
  | refl => exact Nat.le_refl _
  | tail _ hturn ih => exact Nat.le_trans (Nat.le_of_lt hturn.length_lt) ih

theorem Turns.suffix (hp : ∀ t e r, Reads (p t) e r → r <:+ t) (h : Turns operators p x y) :
    y.2 <:+ x.2 := by
  induction h with
  | refl => exact List.suffix_rfl
  | @tail y z _ hturn ih =>
    obtain ⟨op, r, right, -, hy, hright, -⟩ := hturn
    have hbehind : r <:+ y.2 := ⟨[op], hy.symm⟩
    exact (((hp _ _ _ hright).trans (skipBlank_isSuffix r)).trans hbehind).trans ih

/-- Operations are turns, as many as there are. -/
theorem passes_operations_iff_turns {s r : List Char} {left e : Expr} {h : s.length ≤ n} :
    Passes (Parser.operations operators (fun t _ => p t) left s h) e r ↔
      Turns operators p (left, s) (e, r) ∧ ∀ c ∈ r.head?, c ∉ operators := by
  rw [passes_operations_iff, ← oneOf?_eq_none_iff]
  constructor
  · rintro (⟨hstop, rfl, rfl⟩ | ⟨op, r₁, right, r₂, h₁, h₂, hop, rfl, hright, hmore⟩)
    · exact ⟨.refl, hstop⟩
    · have hturn : Turn operators p (left, op :: r₁) (.binary left op right, r₂) :=
        ⟨op, r₁, right, hop, rfl, hright, rfl⟩
      have hlt := hturn.length_lt
      obtain ⟨hturns, hstop⟩ := (passes_operations_iff_turns).mp hmore
      exact ⟨.head hturn hturns, oneOf?_eq_none_iff.mpr hstop⟩
  · rintro ⟨hturns, hstop⟩
    obtain heq | ⟨⟨left', r₂⟩, hturn, hmore⟩ := hturns.cases_head
    · cases heq
      exact .inl ⟨hstop, rfl, rfl⟩
    · have hlt := hturn.length_lt
      obtain ⟨op, r₁, right, hop, rfl, hright, rfl⟩ := hturn
      refine .inr ⟨op, r₁, right, r₂, ?_, ?_, hop, rfl, hright,
        (passes_operations_iff_turns).mpr ⟨hmore, oneOf?_eq_none_iff.mp hstop⟩⟩
      · exact Nat.le_trans (length_skipBlank_le _) (Nat.le_of_succ_le h)
      · exact Nat.le_trans (Nat.le_of_lt hlt) h
termination_by s.length

/-- Operations ask for an operand behind each operator at which they arrive, and for no other. -/
theorem operations_congr {s : List Char} {left : Expr} {h : s.length ≤ n} {h' : s.length ≤ m}
    (hpq : ∀ left' op r, Turns operators p (left, s) (left', op :: r) → op ∈ operators →
      q (skipBlank r) = p (skipBlank r)) :
    Parser.operations operators (fun t (_ : t.length ≤ n) => q t) left s h =
      Parser.operations operators (fun t (_ : t.length ≤ m) => p t) left s h' := by
  rw [Parser.operations, Parser.operations]
  cases hop : Scan.oneOf? operators s with
  | none => rfl
  | some op =>
    obtain ⟨hmem, hs⟩ := oneOf?_eq_some_iff.mp hop
    have hfirst : q op.skipBlank.rest = p op.skipBlank.rest := hpq left op.value op.rest (by
      rw [← hs]) hmem
    simp only [hfirst]
    refine bind_congr_of_ok fun right hright => ?_
    have hturn : Turn operators p (left, s) (.binary left op.value right.value, right.rest) :=
      ⟨op.value, op.rest, right.value, hmem, hs, .of_eq_ok hright, rfl⟩
    have hlt := hturn.length_lt
    rw [operations_congr fun left' op' r hturns => hpq left' op' r (.head hturn hturns)]
termination_by s.length

theorem chain_congr {s : List Char} (h : s.length ≤ n) (h' : s.length ≤ m)
    (hfirst : q s = p s)
    (hnext : ∀ first r left op r', Reads (p s) first r →
      Turns operators p (first, r) (left, op :: r') → op ∈ operators →
      q (skipBlank r') = p (skipBlank r')) :
    Parser.chain operators (fun t (_ : t.length ≤ n) => q t) s h =
      Parser.chain operators (fun t (_ : t.length ≤ m) => p t) s h' := by
  simp only [Parser.chain, hfirst]
  refine bind_congr_of_ok fun first hread => ?_
  rw [operations_congr fun left op r' => hnext _ _ left op r' (.of_eq_ok hread)]

/-- The bound on the texts of a chain has no say in what it reads. -/
theorem chain_eq (p : (t : List Char) → Parser.Result t) :
    Parser.chain operators (fun t (_ : t.length ≤ n) => p t) =
      fun s _ => Parser.chain (n := s.length) operators (fun t _ => p t) s (Nat.le_refl _) := by
  funext s h
  exact chain_congr h _ rfl fun _ _ _ _ _ _ _ _ => rfl

end

/-! ## Calls -/

/-- The parser of a level is asked to read a text; without a level, the parser of operands is. -/
structure Parser.Call where
  level : Option Level
  text : List Char

/-- An answer to each call. -/
abbrev Parser.Answers := (x : Parser.Call) → Parser.Result x.text

namespace Parser

/-- What the parser answers. -/
def answer (x : Call) : Result x.text :=
  match x.level with
  | none => operand x.text fun t _ => expression t
  | some own => level (n := x.text.length) (fun t _ => operand t fun u _ => expression u) own x.text
      (Nat.le_refl _)

/-- What the parser makes of the answers to its own calls. -/
def body (f : Answers) (x : Call) : Result x.text :=
  match x.level with
  | none => operand x.text fun t _ => f ⟨some .additive, t⟩
  | some own =>
    chain (n := x.text.length) own.operators (fun t _ => f ⟨own.tighter, t⟩) x.text (Nat.le_refl _)

/-- The calls that the parser makes if these are the answers to them. -/
inductive Calls (f : Answers) : Call → Call → Prop
  /-- The first operand of a chain. -/
  | first (own : Level) (s : List Char) : Calls f ⟨some own, s⟩ ⟨own.tighter, s⟩
  /-- The operand behind an operator at which the turns of a chain have arrived. -/
  | next {own : Level} {s r r' : List Char} {first left : Expr} {op : Char} :
    Reads (f ⟨own.tighter, s⟩) first r →
    Turns own.operators (fun t => f ⟨own.tighter, t⟩) (first, r) (left, op :: r') →
    op ∈ own.operators → Calls f ⟨some own, s⟩ ⟨own.tighter, skipBlank r'⟩
  /-- The argument of a function. -/
  | argument {s name r r' : List Char} :
    Reads (identifier s) name r → skipBlank r = '(' :: r' →
    Calls f ⟨none, s⟩ ⟨some .additive, skipBlank r'⟩
  /-- An expression in parentheses. -/
  | parenthesized (r : List Char) : Calls f ⟨none, '(' :: r⟩ ⟨some .additive, skipBlank r⟩

/-- How many levels are tighter, operands counted as one. -/
def distance : Option Level → Nat
  | none => 0
  | some .exponential => 1
  | some .multiplicative => 2
  | some .additive => 3

/-- A bound on the number of calls within calls. -/
def Call.depth (x : Call) : Nat :=
  4 * x.text.length + distance x.level

end Parser

open ColumnCalc.Parser (Call Answers Calls answer body distance)

/-! ### What the parser answers -/

theorem expression_eq (s : List Char) :
    Parser.expression s = answer ⟨some .additive, s⟩ := by
  rw [Parser.expression]
  rfl

section
variable {level : Option Level} {s r : List Char} {e : Expr}

theorem starts_answer (h : Reads (answer ⟨level, s⟩) e r) : Starts level s e r := by
  have hoperand : ∀ t e r, Reads (Parser.operand t fun u _ => Parser.expression u) e r →
      Starts none t e r :=
    fun t e r => starts_of_reads_operand fun u hu e r => sound_expression
  cases level with
  | none => exact hoperand s e r h
  | some own => exact sound_level (fun t _ => hoperand t) own _ _ _ _ h

theorem settled_answer (h : Reads (answer ⟨level, s⟩) e r) : Settled level r := by
  cases level with
  | none => exact settled_operand h
  | some own => exact settles_level (fun t _ e r => settled_operand) own _ _ _ _ h

end

/-! ### The parser does what its body does -/

theorem chain_answer (own : Level) (n : Nat) :
    Parser.chain own.operators (fun t (_ : t.length ≤ n) => answer ⟨own.tighter, t⟩) =
      fun t _ => answer ⟨some own, t⟩ := by
  have hexponential (n : Nat) :
      Parser.chain Level.exponential.operators (fun t (_ : t.length ≤ n) => answer ⟨none, t⟩) =
        fun t _ => answer ⟨some .exponential, t⟩ :=
    chain_eq fun t => answer ⟨none, t⟩
  have hmultiplicative (n : Nat) :
      Parser.chain Level.multiplicative.operators
          (fun t (_ : t.length ≤ n) => answer ⟨some .exponential, t⟩) =
        fun t _ => answer ⟨some .multiplicative, t⟩ := by
    rw [chain_eq fun t => answer ⟨some .exponential, t⟩]
    funext t _
    rw [← hexponential t.length]
    rfl
  cases own with
  | exponential => exact hexponential n
  | multiplicative => exact hmultiplicative n
  | additive =>
    change Parser.chain _ (fun t _ => answer ⟨some .multiplicative, t⟩) = _
    rw [chain_eq fun t => answer ⟨some .multiplicative, t⟩]
    funext t _
    rw [← hmultiplicative t.length, ← hexponential t.length]
    rfl

theorem body_answer : body answer = answer := by
  funext ⟨level, s⟩
  cases level with
  | none =>
    change Parser.operand s (fun t _ => answer ⟨some .additive, t⟩) =
      Parser.operand s fun t _ => Parser.expression t
    simp only [expression_eq]
  | some own => exact congrFun (congrFun (chain_answer own s.length) s) (Nat.le_refl _)

/-- A chain is its first operand and turns behind it, as many as there are operators. -/
theorem reads_body_iff {f : Answers} {own : Level} {s r : List Char} {e : Expr} :
    Reads (body f ⟨some own, s⟩) e r ↔
      ∃ first r', Reads (f ⟨own.tighter, s⟩) first r' ∧
        Turns own.operators (fun t => f ⟨own.tighter, t⟩) (first, r') (e, r) ∧
        ∀ c ∈ r.head?, c ∉ own.operators := by
  simp only [body, reads_chain_iff, passes_operations_iff_turns]
  constructor
  · rintro ⟨first, r', -, hfirst, hturns⟩
    exact ⟨first, r', hfirst, hturns⟩
  · rintro ⟨first, r', ⟨hlt, hfirst⟩, hturns⟩
    exact ⟨first, r', Nat.le_of_lt hlt, ⟨hlt, hfirst⟩, hturns⟩

/-! ### Other answers have no say -/

section
variable {s : List Char} {p q : (t : List Char) → Parser.Result t}

theorem closed_congr (opened : Parsed Char s)
    (h : q (skipBlank opened.rest) = p (skipBlank opened.rest)) :
    Parser.closed opened (fun t _ => q t) = Parser.closed opened (fun t _ => p t) := by
  have hinner : q opened.skipBlank.rest = p opened.skipBlank.rest := h
  simp only [Parser.closed, hinner]

theorem call_congr
    (h : ∀ name r r', Reads (Parser.identifier s) name r → skipBlank r = '(' :: r' →
      q (skipBlank r') = p (skipBlank r')) :
    Parser.call s (fun t _ => q t) = Parser.call s (fun t _ => p t) := by
  unfold Parser.call
  refine bind_congr_of_ok fun name hname => bind_congr_of_ok fun opened hopened => ?_
  obtain ⟨-, hr⟩ := reads_expect_iff.mp (.of_eq_ok hopened)
  rw [closed_congr (opened.widen (Nat.le_of_lt name.skipBlank.rest_lt))
    (h _ _ _ (.of_eq_ok hname) hr)]

theorem parenthesized_congr (h : ∀ r, s = '(' :: r → q (skipBlank r) = p (skipBlank r)) :
    Parser.parenthesized s (fun t _ => q t) = Parser.parenthesized s (fun t _ => p t) := by
  unfold Parser.parenthesized
  refine bind_congr_of_ok fun opened hopened => ?_
  obtain ⟨-, hs⟩ := reads_expect_iff.mp (.of_eq_ok hopened)
  exact closed_congr opened (h _ hs)

end

theorem body_congr {f g : Answers} {x : Call} (h : ∀ y, Calls f x y → g y = f y) :
    body g x = body f x := by
  obtain ⟨level, s⟩ := x
  cases level with
  | none =>
    have hcall := call_congr (s := s) (q := fun t => g ⟨some .additive, t⟩)
      (p := fun t => f ⟨some .additive, t⟩) fun name r r' hname hopen => h _ (.argument hname hopen)
    have hparens := parenthesized_congr (s := s) (q := fun t => g ⟨some .additive, t⟩)
      (p := fun t => f ⟨some .additive, t⟩) fun r hs => h _ (hs ▸ .parenthesized r)
    simp only [body, Parser.operand, hcall, hparens]
  | some own =>
    exact chain_congr (q := fun t => g ⟨own.tighter, t⟩) (p := fun t => f ⟨own.tighter, t⟩)
      (Nat.le_refl _) (Nat.le_refl _) (h _ (.first own s))
      fun _ _ _ _ _ hfirst hturns hop => h _ (.next hfirst hturns hop)

/-! ### The calls decrease -/

theorem distance_tighter (own : Level) : distance own.tighter < distance (some own) := by
  cases own <;> decide

theorem distance_le (level : Option Level) : distance level ≤ 3 := by
  rcases level with - | own
  · decide
  · cases own <;> decide

/-- A call has a shorter text than its caller, or the same text and a tighter level. -/
theorem Parser.Calls.lex {f : Answers} {x y : Call} (h : Calls f x y) :
    Prod.Lex (· < ·) (· < ·) (y.text.length, distance y.level)
      (x.text.length, distance x.level) := by
  cases h with
  | first own s => exact .right _ (distance_tighter own)
  | @next _ _ _ r' _ _ _ hfirst hturns =>
    refine .left _ _ (Nat.lt_of_le_of_lt (length_skipBlank_le r') ?_)
    obtain ⟨hlt, -⟩ := hfirst
    exact Nat.lt_trans (Nat.lt_of_succ_le hturns.length_le) hlt
  | @argument _ _ r r' hname hopen =>
    refine .left _ _ (Nat.lt_of_le_of_lt (length_skipBlank_le r') ?_)
    obtain ⟨hlt, -⟩ := hname
    have hle := length_skipBlank_le r
    rw [hopen] at hle
    exact Nat.lt_trans (Nat.lt_of_succ_le hle) hlt
  | parenthesized r => exact .left _ _ (Nat.lt_succ_of_le (length_skipBlank_le r))

/-- Calls are made for ends of the caller's text. -/
theorem Parser.Calls.suffix {x y : Call} (h : Calls answer x y) : y.text <:+ x.text := by
  have hanswer : ∀ level t e r, Reads (answer ⟨level, t⟩) e r → r <:+ t :=
    fun level t e r hread => (starts_answer hread).suffix
  cases h with
  | first own s => exact List.suffix_rfl
  | next hfirst hturns =>
    have hoperator := hturns.suffix fun t e r => hanswer _ t e r
    have hbehind := (List.suffix_cons _ _).trans hoperator
    exact ((skipBlank_isSuffix _).trans hbehind).trans (hanswer _ _ _ _ hfirst)
  | @argument _ name r r' hname hopen =>
    obtain ⟨-, rfl⟩ := isIdentifier_of_identifier hname
    have hbehind : r' <:+ r := (hopen ▸ List.suffix_cons '(' r').trans (skipBlank_isSuffix r)
    exact ((skipBlank_isSuffix r').trans hbehind).trans (List.suffix_append name r)
  | parenthesized r => exact (skipBlank_isSuffix r).trans (List.suffix_cons _ r)

/-! ### The recursion ends -/

/-- No call leads to calls within calls without end. -/
theorem wellFounded_calls (f : Answers) : WellFounded fun y x => Calls f x y :=
  Subrelation.wf Calls.lex
    (InvImage.wf (fun x : Call => (x.text.length, distance x.level))
      (Prod.lex Nat.lt_wfRel Nat.lt_wfRel).wf)

theorem Parser.Calls.depth_lt {f : Answers} {x y : Call} (h : Calls f x y) : y.depth < x.depth := by
  have hy := distance_le y.level
  have hlex := Prod.lex_def.mp h.lex
  simp only at hlex
  unfold Call.depth
  omega

/--
Whatever stands in for the answers to the innermost calls, the parser does not notice if it stands
deep enough.
-/
theorem iterate_body (f : Answers) {n : Nat} {x : Call} (h : x.depth < n) :
    (body^[n] f) x = answer x := by
  induction n generalizing x with
  | zero => exact absurd h (Nat.not_lt_zero _)
  | succ n ih =>
    rw [Function.iterate_succ_apply']
    conv_rhs => rw [← body_answer]
    exact body_congr fun y hy => ih (Nat.lt_of_lt_of_le hy.depth_lt (Nat.le_of_lt_succ h))

/-! ## Whole texts -/

section
variable {p q : (s : List Char) → Parser.Result s}

/-- Reads an expression that fills a text, with a parser of expressions. -/
def Parser.wholeWith (p : (s : List Char) → Result s) (s : List Char) : Except ParseError Expr := do
  let value ← p s
  atEnd value.rest
  pure value.value

def Expr.parseWith (p : (s : List Char) → Parser.Result s) (text : String) :
    Except ParseError Expr :=
  Parser.wholeWith p (skipBlank text.toList)

def Formula.parseWith (p : (s : List Char) → Parser.Result s) (text : String) :
    Except ParseError Formula :=
  let start := skipBlank text.toList
  match Parser.target? start with
  | some (name, rest) => do
    let value ← Parser.wholeWith p rest
    pure ⟨some (.ofList name), value⟩
  | none => do
    let value ← Parser.wholeWith p start
    pure ⟨none, value⟩

theorem Parser.wholeWith_congr {s : List Char} (h : q s = p s) : wholeWith q s = wholeWith p s := by
  simp only [wholeWith, h]

/-- A formula is read by reading expressions in texts that are no longer than its own. -/
theorem parseWith_congr {text : String} (h : ∀ s, s.length ≤ text.length → q s = p s) :
    Expr.parseWith q text = Expr.parseWith p text ∧
      Formula.parseWith q text = Formula.parseWith p text := by
  have hstart : (skipBlank text.toList).length ≤ text.length :=
    String.length_toList ▸ length_skipBlank_le text.toList
  have hwhole := Parser.wholeWith_congr (h _ hstart)
  refine ⟨hwhole, ?_⟩
  unfold Formula.parseWith
  cases htarget : Parser.target? (skipBlank text.toList) with
  | none => simp only [htarget, hwhole]
  | some target =>
    obtain ⟨name, rest⟩ := target
    obtain ⟨front, -, hs⟩ := (consumes_target htarget).front
    have hrest : rest.length ≤ text.length := by
      rw [hs, List.length_append] at hstart
      omega
    simp only [htarget, Parser.wholeWith_congr (h rest hrest)]

/-- Calls within calls, four for each character and four more, are all that a text can need. -/
theorem parse_eq_iterate (f : Answers) {n : Nat} {text : String} (h : 4 * (text.length + 1) ≤ n) :
    Expr.parse text = Expr.parseWith (fun s => (body^[n] f) ⟨some .additive, s⟩) text ∧
      Formula.parse text = Formula.parseWith (fun s => (body^[n] f) ⟨some .additive, s⟩) text := by
  refine parseWith_congr fun s hs => ?_
  have hdepth : (Call.mk (some .additive) s).depth < n := by
    simp only [Call.depth, distance]
    omega
  rw [iterate_body f hdepth]
  exact expression_eq s

end

/-! ## Progress -/

/-- The forms of operands consume what they read, with whole expressions inside them. -/
theorem consumes_of_mem_forms {s r : List Char} {e : Expr} {form : Unit → Parser.Result s}
    (hform : form ∈ Parser.forms s fun t _ => Parser.expression t) (h : Reads (form ()) e r) :
    Consumes s r :=
  (starts_of_mem_forms (fun _ _ _ _ => sound_expression) hform h).consumes
    (settled_of_mem_forms hform h)

/-- What reads something leaves a proper end of its text, without blanks in front. -/
structure Parser.Consuming : Prop where
  /-- Behind an expression of a level no operator of that level or of a tighter one comes next. -/
  level : ∀ {level s e r}, Reads (answer ⟨level, s⟩) e r → Consumes s r ∧ Settled level r
  form : ∀ {s form}, form ∈ Parser.forms s (fun t _ => Parser.expression t) →
    ∀ {e r}, Reads (form ()) e r → Consumes s r
  name : ∀ {s name r}, Reads (Parser.identifier s) name r → Consumes s (skipBlank r)
  target : ∀ {s name r}, Parser.target? s = some (name, r) → Consumes s r

/-- The parser calls itself for less than it was called for. -/
structure Parser.Descending : Prop where
  expression : ∀ s, Parser.expression s = answer ⟨some .additive, s⟩
  /-- The parser's answer is what its body makes of its own answers. -/
  body_answer : body answer = answer
  /-- No answer to another call than those of `Calls` has a say. -/
  body_congr : ∀ {f g x}, (∀ y, Calls f x y → g y = f y) → body g x = body f x
  /-- A call has a shorter text than its caller, or the same text and a tighter level. -/
  calls : ∀ {f x y}, Calls f x y → Prod.Lex (· < ·) (· < ·)
    (y.text.length, distance y.level) (x.text.length, distance x.level)
  calls_suffix : ∀ {x y}, Calls answer x y → y.text <:+ x.text
  /-- A chain is a first operand and turns. -/
  chain : ∀ {f own s e r}, Reads (body f ⟨some own, s⟩) e r ↔
    ∃ first r', Reads (f ⟨own.tighter, s⟩) first r' ∧
      Turns own.operators (fun t => f ⟨own.tighter, t⟩) (first, r') (e, r) ∧
      ∀ c ∈ r.head?, c ∉ own.operators
  turn : ∀ {operators p x y}, Turn operators p x y → y.2.length < x.2.length

/-- Calls within calls come to an end, whether the text is well-formed or not. -/
structure Parser.Ending : Prop where
  wellFounded : ∀ f, WellFounded fun y x => Calls f x y
  /-- Calls beyond a depth are not made, so that any answers `f` to them will do. -/
  answer : ∀ f {n x}, x.depth < n → (body^[n] f) x = answer x
  /-- The depth that a text needs grows with its length. -/
  parse : ∀ f {n text}, 4 * (text.length + 1) ≤ n →
    Expr.parse text = Expr.parseWith (fun s => (body^[n] f) ⟨some .additive, s⟩) text ∧
    Formula.parse text = Formula.parseWith (fun s => (body^[n] f) ⟨some .additive, s⟩) text

theorem Parser.consuming : Parser.Consuming where
  level h := ⟨(starts_answer h).consumes (settled_answer h), settled_answer h⟩
  form hform _ _ := consumes_of_mem_forms hform
  name := consumes_identifier
  target := consumes_target

theorem Parser.descending : Parser.Descending where
  expression := expression_eq
  body_answer := body_answer
  body_congr := body_congr
  calls := Calls.lex
  calls_suffix := Calls.suffix
  chain := reads_body_iff
  turn := Turn.length_lt

theorem Parser.ending : Parser.Ending where
  wellFounded := wellFounded_calls
  answer f := iterate_body f
  parse f := parse_eq_iterate f

/--
The parser moves on and comes to an end: what it reads is consumed, what it calls itself for is less
than what it was called for, and a bound on the calls within calls decides what a text is read as.
-/
theorem parser_progress : Parser.Consuming ∧ Parser.Descending ∧ Parser.Ending :=
  ⟨Parser.consuming, Parser.descending, Parser.ending⟩

/-- A product in front of a difference. -/
theorem parser_progress_product :
    let s := "2 * a - 1".toList
    let r := ['-', ' ', '1']
    let product : Expr := .binary (.literal 2.0) '*' (.constant "a")
    Reads (answer ⟨some .multiplicative, s⟩) product r ∧
    Consumes s r ∧ Settled (some .multiplicative) r ∧
    Calls answer ⟨some .additive, s⟩ ⟨some .multiplicative, ['1']⟩ ∧
    Prod.Lex (· < ·) (· < ·) (1, 2) (9, 3) ∧
    ∀ f, Formula.parse "2 * a - 1"
      = Formula.parseWith (fun s => (body^[40] f) ⟨some .additive, s⟩) "2 * a - 1" := by
  intro s r product
  have hanswer : (answer ⟨some .multiplicative, s⟩).map (fun p => (p.value, p.rest))
      = .ok (product, r) := by decide +kernel
  have hread : Reads (answer ⟨some .multiplicative, s⟩) product r := by
    obtain ⟨p, hp, hparts⟩ := map_eq_ok_iff.mp hanswer
    obtain ⟨hvalue, hrest⟩ := Prod.mk.inj hparts
    rw [← hvalue, ← hrest]
    exact .of_eq_ok hp
  have hturns : Turns Level.additive.operators (fun t => answer ⟨some .multiplicative, t⟩)
      (product, r) (product, '-' :: [' ', '1']) := .refl
  have hcall : Calls answer ⟨some .additive, s⟩ ⟨some .multiplicative, ['1']⟩ :=
    .next hread hturns (by decide)
  obtain ⟨hconsuming, hdescending, hending⟩ := parser_progress
  obtain ⟨hconsumes, hsettled⟩ := hconsuming.level hread
  exact ⟨hread, hconsumes, hsettled, hcall, hdescending.calls hcall,
    fun f => (hending.parse f (by decide)).2⟩

end ColumnCalc
