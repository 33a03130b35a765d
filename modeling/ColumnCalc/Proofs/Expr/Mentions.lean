import ColumnCalc.Proofs.Expr.Reading

/-!
# Columns that a text mentions

A dollar stands in a text only around the name of a column. So the columns that an expression refers
to can be read off its text without parsing it, in the order in which they stand there
(`columns_of_formula_parse`).
-/

namespace ColumnCalc

open Text Grammar

/--
The names between dollars. A dollar opens a name and the next one closes it; spaces in front of the
closing one are not part of the name.
-/
def mentions (s : List Char) : List String :=
  match s with
  | [] => []
  | c :: r =>
    if c = '$' then
      .ofList (trimEnd (· == ' ') (r.takeWhile (· != '$')))
        :: mentions ((r.dropWhile (· != '$')).drop 1)
    else mentions r
termination_by s.length
decreasing_by
  · have := length_dropWhile_le (· != '$') r
    simp only [List.length_drop, List.length_cons]
    omega
  · exact Nat.lt_succ_self _

variable {s t name spaces : List Char} {level : Option Level} {e : Expr}

theorem mentions_append_of_not_mem (h : '$' ∉ s) (t : List Char) :
    mentions (s ++ t) = mentions t := by
  induction s with
  | nil => rfl
  | cons c s ih =>
    rw [List.mem_cons, not_or] at h
    rw [List.cons_append, mentions, if_neg (Ne.symm h.1), ih h.2]

theorem mentions_column (hname : IsColumnName name) (hspaces : ∀ c ∈ spaces, c = ' ')
    (t : List Char) :
    mentions ('$' :: (name ++ spaces ++ '$' :: t)) = .ofList name :: mentions t := by
  have hinside : ∀ c ∈ name ++ spaces, (c != '$') = true := by
    intro c hc
    rw [bne_iff_ne]
    rcases List.mem_append.mp hc with hc | hc
    · rintro rfl
      exact not_mem_of_isRun hname.1 (by decide) (by decide) hc
    · rw [hspaces c hc]
      decide
  have htrim : trimEnd (· == ' ') (name ++ spaces) = name := by
    refine trimEnd_append (fun c hc => ?_) fun c hc => by rw [hspaces c hc]; rfl
    rw [beq_eq_false_iff_ne]
    rintro rfl
    exact hname.2 hc
  rw [mentions, if_pos rfl, List.takeWhile_append_of_pos hinside,
    List.dropWhile_append_of_pos hinside, List.takeWhile_cons_of_neg (by simp),
    List.dropWhile_cons_of_neg (by simp), List.append_nil, htrim, List.drop_one, List.tail_cons]

/-- The names in an expression's text come first in a text that goes on behind it. -/
theorem mentions_append_of_isValue (h : IsValue level s e) (t : List Char) :
    mentions (s ++ t) = e.columns ++ mentions t := by
  have hblanks {b : List Char} (hb : IsBlanks b) : '$' ∉ b := not_mem_of_isBlanks hb (by decide)
  have hident {name : List Char} (h : IsIdentifier name) : '$' ∉ name :=
    not_mem_of_isRun h (by decide) (by decide)
  induction h generalizing t with
  | lift _ ih => exact ih t
  | @binary level l b b' r _ _ op _ hb hop hb' _ ihl ihr =>
    have hop : '$' ∉ [op] := by
      rw [List.mem_singleton]
      rintro rfl
      cases level <;> exact absurd hop (by decide)
    have hsplit : l ++ b ++ op :: (b' ++ r) ++ t = l ++ (b ++ ([op] ++ (b' ++ (r ++ t)))) := by
      simp
    rw [hsplit, ihl, mentions_append_of_not_mem (hblanks hb), mentions_append_of_not_mem hop,
      mentions_append_of_not_mem (hblanks hb'), ihr, Expr.columns, List.append_assoc]
  | @call name b b' s b'' _ hname hb hb' _ hb'' ih =>
    have hsplit : name ++ b ++ '(' :: (b' ++ s ++ b'' ++ [')']) ++ t
        = name ++ (b ++ (['('] ++ (b' ++ (s ++ (b'' ++ ([')'] ++ t)))))) := by
      simp
    rw [hsplit, mentions_append_of_not_mem (hident hname), mentions_append_of_not_mem (hblanks hb),
      mentions_append_of_not_mem (by decide), mentions_append_of_not_mem (hblanks hb'), ih,
      mentions_append_of_not_mem (hblanks hb''), mentions_append_of_not_mem (by decide),
      Expr.columns]
  | @column name spaces hname hspaces =>
    have hsplit : '$' :: (name ++ spaces ++ ['$']) ++ t = '$' :: (name ++ spaces ++ '$' :: t) := by
      simp
    rw [hsplit, mentions_column hname hspaces]
    rfl
  | literal hl =>
    exact mentions_append_of_not_mem (not_mem_of_isLiteral hl (by decide) (by decide)) t
  | row => exact mentions_append_of_not_mem (by decide) t
  | @parens b s b' _ hb _ hb' ih =>
    have hsplit : '(' :: (b ++ s ++ b' ++ [')']) ++ t
        = ['('] ++ (b ++ (s ++ (b' ++ ([')'] ++ t)))) := by
      simp
    rw [hsplit, mentions_append_of_not_mem (by decide), mentions_append_of_not_mem (hblanks hb), ih,
      mentions_append_of_not_mem (hblanks hb'), mentions_append_of_not_mem (by decide)]
  | constant hname => exact mentions_append_of_not_mem (hident hname) t

theorem mentions_of_isExpression (h : IsExpression s e) : mentions s = e.columns := by
  obtain ⟨hb, hvalue, hb'⟩ := h
  have hend := mentions_append_of_not_mem (not_mem_of_isBlanks hb' (by decide)) []
  rw [List.append_nil, mentions] at hend
  rw [List.append_assoc, mentions_append_of_not_mem (not_mem_of_isBlanks hb (by decide)),
    mentions_append_of_isValue hvalue, hend, List.append_nil]

/-- The columns of a formula are those between the dollars of its text. -/
theorem columns_of_formula_parse {text : String} {f : Formula} (h : Formula.parse text = .ok f) :
    f.value.columns = mentions text.toList := by
  have hformula := formula_parse_eq_ok_iff.mp h
  generalize text.toList = s at hformula
  cases hformula with
  | value hexpr => exact (mentions_of_isExpression hexpr).symm
  | @assignment b name b' s _ hb hname hb' hexpr =>
    have hsplit : b ++ name ++ b' ++ '=' :: s = b ++ (name ++ (b' ++ (['='] ++ s))) := by simp
    rw [hsplit, mentions_append_of_not_mem (not_mem_of_isBlanks hb (by decide)),
      mentions_append_of_not_mem (not_mem_of_isRun hname (by decide) (by decide)),
      mentions_append_of_not_mem (not_mem_of_isBlanks hb' (by decide)),
      mentions_append_of_not_mem (by decide), mentions_of_isExpression hexpr]

end ColumnCalc
