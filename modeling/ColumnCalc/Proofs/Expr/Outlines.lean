import ColumnCalc.Expr.Basic
import ColumnCalc.Proofs.Number.Rereading

/-!
# Outlines show the whole tree

An outline has one line for each node, in pre-order and as far to the right as the node is deep,
provided that no name and no operator breaks a line (`splitOn_rows`). The kind of a node can be told
from its line, and with it how many operands follow; so the tree can be read off the lines even
where operands are not set further in (`sameText_of_rows`).
-/

namespace ColumnCalc

namespace Expr

/-- The nodes of a tree in pre-order with their depths, the root standing at the given one. -/
def nodes (depth : Nat) : Expr → List (Nat × Expr)
  | call function argument => (depth, call function argument) :: argument.nodes (depth + 1)
  | binary left op right =>
    (depth, binary left op right) :: (left.nodes (depth + 1) ++ right.nodes (depth + 1))
  | leaf => [(depth, leaf)]

/-- No name and no operator holds a line break. -/
def IsUnbroken : Expr → Prop
  | literal _ => True
  | column name => '\n' ∉ name.toList
  | row => True
  | constant name => '\n' ∉ name.toList
  | call function argument => '\n' ∉ function.toList ∧ argument.IsUnbroken
  | binary left op right => op ≠ '\n' ∧ left.IsUnbroken ∧ right.IsUnbroken

/-- Equal trees, except that literals need only have the same text. -/
inductive SameText : Expr → Expr → Prop where
  | literal {v w : Float} : Number.plain v = Number.plain w → SameText (literal v) (literal w)
  | column (name : String) : SameText (column name) (column name)
  | row : SameText row row
  | constant (name : String) : SameText (constant name) (constant name)
  | call {function : String} {a b : Expr} : SameText a b →
      SameText (call function a) (call function b)
  | binary {op : Char} {l l' r r' : Expr} : SameText l l' → SameText r r' →
      SameText (binary l op r) (binary l' op r')

end Expr

namespace Formula

/-- The label of a target. -/
def targetLabel (name : String) : List Char :=
  "Assignment (target: ".toList ++ name.toList ++ [')']

/-- The labels of a formula in pre-order with their depths; a target stands above its value. -/
def labels (f : Formula) : List (Nat × List Char) :=
  match f.target with
  | some name => (0, targetLabel name) :: (f.value.nodes 1).map fun node => (node.1, node.2.label)
  | none => (f.value.nodes 0).map fun node => (node.1, node.2.label)

def IsUnbroken (f : Formula) : Prop :=
  (∀ name ∈ f.target, '\n' ∉ name.toList) ∧ f.value.IsUnbroken

/-- Equal targets, or none in both, and values of the same text. -/
def SameText (f g : Formula) : Prop :=
  f.target = g.target ∧ f.value.SameText g.value

end Formula

/-- A line of an outline without its end. -/
def outlineRow (indent step : Nat) (entry : Nat × List Char) : List Char :=
  List.replicate (indent + entry.1 * step) ' ' ++ entry.2

theorem outlineRow_inj {indent step depth : Nat} {a b : List Char} :
    outlineRow indent step (depth, a) = outlineRow indent step (depth, b) ↔ a = b :=
  List.append_right_inj _

/-! ## Labels -/

namespace Expr

@[simp]
theorem label_literal (v : Float) :
    (literal v).label = ['L', 'i', 't', 'e', 'r', 'a', 'l', ':', ' '] ++ Number.plain v := by
  rfl

@[simp]
theorem label_column (name : String) : (column name).label =
    ['C', 'o', 'l', 'R', 'e', 'f', ' ', '(', 'n', 'a', 'm', 'e', ':', ' ']
      ++ name.toList ++ [')'] := by
  rfl

@[simp]
theorem label_row : row.label = ['R', 'o', 'w', 'I', 'd', ':', ' ', '#'] := by
  rfl

@[simp]
theorem label_constant (name : String) :
    (constant name).label = ['C', 'o', 'n', 's', 't', 'a', 'n', 't', ':', ' '] ++ name.toList := by
  rfl

@[simp]
theorem label_call (function : String) (argument : Expr) : (call function argument).label =
    ['F', 'u', 'n', 'c', 't', 'i', 'o', 'n', 'C', 'a', 'l', 'l', ' ', '(', 'n', 'a', 'm', 'e', ':',
      ' '] ++ function.toList ++ [')'] := by
  rfl

@[simp]
theorem label_binary (left : Expr) (op : Char) (right : Expr) : (binary left op right).label =
    ['B', 'i', 'n', 'a', 'r', 'y', 'O', 'p', ' ', '(', 'o', 'p', 'e', 'r', 'a', 't', 'o', 'r', ':',
      ' '] ++ [op, ')'] := by
  rfl

theorem targetLabel_eq (name : String) : Formula.targetLabel name =
    ['A', 's', 's', 'i', 'g', 'n', 'm', 'e', 'n', 't', ' ', '(', 't', 'a', 'r', 'g', 'e', 't', ':',
      ' '] ++ name.toList ++ [')'] := by
  rfl

theorem targetLabel_inj {name name' : String} :
    Formula.targetLabel name = Formula.targetLabel name' ↔ name = name' := by
  simp [targetLabel_eq, String.toList_inj]

/-- A label says all of a node but its operands. -/
inductive SameNode : Expr → Expr → Prop where
  | literal {v w : Float} : Number.plain v = Number.plain w → SameNode (literal v) (literal w)
  | column (name : String) : SameNode (column name) (column name)
  | row : SameNode row row
  | constant (name : String) : SameNode (constant name) (constant name)
  | call (function : String) (a b : Expr) : SameNode (call function a) (call function b)
  | binary (op : Char) (l l' r r' : Expr) : SameNode (binary l op r) (binary l' op r')

theorem sameNode_of_label {e e' : Expr} (h : e.label = e'.label) : SameNode e e' := by
  -- Labels of two kinds differ within their first two letters.
  cases e <;> cases e' <;> simp [String.toList_inj] at h
  case literal.literal => exact .literal h
  case column.column =>
    subst h
    exact .column _
  case row.row => exact .row
  case constant.constant =>
    subst h
    exact .constant _
  case call.call =>
    subst h
    exact .call _ _ _
  case binary.binary =>
    subst h
    exact .binary _ _ _ _ _

theorem label_ne_targetLabel (e : Expr) (name : String) : e.label ≠ Formula.targetLabel name := by
  cases e <;> simp [targetLabel_eq]

/-! ## Rows -/

/-- The lines of a tree whose root stands at a depth. -/
def rows (indent step depth : Nat) (e : Expr) : List (List Char) :=
  (e.nodes depth).map fun node => outlineRow indent step (node.1, node.2.label)

/-- The lines below the root's. -/
def rowsBelow (indent step depth : Nat) : Expr → List (List Char)
  | call _ argument => argument.rows indent step (depth + 1)
  | binary left _ right =>
    left.rows indent step (depth + 1) ++ right.rows indent step (depth + 1)
  | _ => []

theorem rows_eq (indent step depth : Nat) (e : Expr) : e.rows indent step depth =
    outlineRow indent step (depth, e.label) :: e.rowsBelow indent step depth := by
  cases e with
  | binary left op right => simp only [rows, rowsBelow, nodes, List.map_cons, List.map_append]
  | _ => rfl

/-- The lines of an outline are the rows with their ends. -/
theorem outlineLines_eq (e : Expr) (indent step depth : Nat) :
    e.outlineLines (indent + depth * step) step =
      (e.rows indent step depth).map (· ++ ['\n']) := by
  induction e generalizing depth with
  | call function argument ih =>
    have hdeeper : indent + depth * step + step = indent + (depth + 1) * step := by
      rw [Nat.succ_mul, Nat.add_assoc]
    rw [rows_eq, rowsBelow, List.map_cons, ← ih (depth + 1), ← hdeeper]
    rfl
  | binary left op right ihl ihr =>
    have hdeeper : indent + depth * step + step = indent + (depth + 1) * step := by
      rw [Nat.succ_mul, Nat.add_assoc]
    rw [rows_eq, rowsBelow, List.map_cons, List.map_append, ← ihl (depth + 1),
      ← ihr (depth + 1), ← hdeeper]
    rfl
  | _ => rfl

section
variable {indent step depth : Nat} {e e' : Expr} {X Y : List (List Char)}

/-- The first row tells the root. -/
theorem sameNode_of_rows
    (h : e.rows indent step depth ++ X = e'.rows indent step depth ++ Y) :
    SameNode e e' ∧
      e.rowsBelow indent step depth ++ X = e'.rowsBelow indent step depth ++ Y := by
  rw [rows_eq, rows_eq, List.cons_append, List.cons_append] at h
  obtain ⟨hlabel, hbelow⟩ := List.cons.inj h
  exact ⟨sameNode_of_label (outlineRow_inj.mp hlabel), hbelow⟩

/--
Rows with anything behind them determine the tree and what stands behind it: the root tells how many
trees follow it.
-/
theorem sameText_of_rows
    (h : e.rows indent step depth ++ X = e'.rows indent step depth ++ Y) :
    e.SameText e' ∧ X = Y := by
  induction e generalizing e' depth X Y with
  | call function argument ih =>
    obtain ⟨⟨⟩, hbelow⟩ := sameNode_of_rows h
    obtain ⟨hargument, hrest⟩ := ih hbelow
    exact ⟨.call hargument, hrest⟩
  | binary left op right ihl ihr =>
    obtain ⟨⟨⟩, hbelow⟩ := sameNode_of_rows h
    rw [rowsBelow, rowsBelow, List.append_assoc, List.append_assoc] at hbelow
    obtain ⟨hleft, hrest⟩ := ihl hbelow
    obtain ⟨hright, hrest⟩ := ihr hrest
    exact ⟨.binary hleft hright, hrest⟩
  | literal v =>
    obtain ⟨⟨hv⟩, hrest⟩ := sameNode_of_rows h
    exact ⟨.literal hv, hrest⟩
  | column name =>
    obtain ⟨⟨⟩, hrest⟩ := sameNode_of_rows h
    exact ⟨.column name, hrest⟩
  | row =>
    obtain ⟨⟨⟩, hrest⟩ := sameNode_of_rows h
    exact ⟨.row, hrest⟩
  | constant name =>
    obtain ⟨⟨⟩, hrest⟩ := sameNode_of_rows h
    exact ⟨.constant name, hrest⟩

theorem rows_of_sameText (h : e.SameText e') :
    e.rows indent step depth = e'.rows indent step depth := by
  induction h generalizing depth with
  | literal hv =>
    rw [rows_eq, rows_eq, label_literal, label_literal, hv]
    rfl
  | call _ ih => rw [rows_eq, rows_eq, label_call, label_call, rowsBelow, rowsBelow, ih]
  | binary _ _ ihl ihr =>
    rw [rows_eq, rows_eq, label_binary, label_binary, rowsBelow, rowsBelow, ihl, ihr]
  | _ => rfl

/-! ## Line breaks -/

theorem not_mem_plain (v : Float) : '\n' ∉ Number.plain v := by
  intro hmem
  by_cases hnan : v.isNaN = true
  · rw [Number.plain, if_pos hnan] at hmem
    exact absurd hmem (by decide)
  · have hcell : Number.cell v = Number.plain v := if_neg hnan
    rw [← hcell] at hmem
    exact absurd (Number.isBlank_of_mem_cell _ hmem) (by decide)

theorem not_mem_label (h : e.IsUnbroken) : '\n' ∉ e.label := by
  cases e with
  | literal v => simpa using not_mem_plain v
  | column name => simpa [IsUnbroken] using h
  | row => decide
  | constant name => simpa [IsUnbroken] using h
  | call function argument => simpa using h.1
  | binary left op right => simpa using h.1.symm

theorem not_mem_outlineRow {entry : Nat × List Char} (h : '\n' ∉ entry.2) :
    '\n' ∉ outlineRow indent step entry := by
  intro hmem
  rcases List.mem_append.mp hmem with hmem | hmem
  · exact absurd (List.eq_of_mem_replicate hmem) (by decide)
  · exact h hmem

theorem not_mem_of_mem_rows (h : e.IsUnbroken) {line : List Char}
    (hline : line ∈ e.rows indent step depth) : '\n' ∉ line := by
  induction e generalizing depth with
  | call function argument ih =>
    rw [rows_eq] at hline
    rcases List.mem_cons.mp hline with rfl | hbelow
    · exact not_mem_outlineRow (not_mem_label h)
    · exact ih h.2 hbelow
  | binary left op right ihl ihr =>
    rw [rows_eq] at hline
    rcases List.mem_cons.mp hline with rfl | hbelow
    · exact not_mem_outlineRow (not_mem_label h)
    · rcases List.mem_append.mp hbelow with hbelow | hbelow
      · exact ihl h.2.1 hbelow
      · exact ihr h.2.2 hbelow
  | _ =>
    rw [List.mem_singleton.mp hline]
    exact not_mem_outlineRow (not_mem_label h)

end

end Expr

/-- A text of lines with their ends is split into these lines, and nothing behind the last one. -/
theorem splitOn_lines {lines : List (List Char)} (h : ∀ line ∈ lines, '\n' ∉ line) :
    (lines.map (· ++ ['\n'])).flatten.splitOn '\n' = lines ++ [[]] := by
  induction lines with
  | nil => rfl
  | cons line lines ih =>
    have hline : ∀ c ∈ line, (c == '\n') = false := by
      intro c hc
      simp only [beq_eq_false_iff_ne]
      rintro rfl
      exact h line (.head _) hc
    have htext : ((line :: lines).map (· ++ ['\n'])).flatten
        = line ++ '\n' :: (lines.map (· ++ ['\n'])).flatten := by simp
    rw [htext, List.splitOn_eq_splitOnP,
      List.splitOnP_append_cons_of_forall_mem hline '\n' (by decide), ← List.splitOn_eq_splitOnP,
      ih fun line hl => h line (.tail _ hl)]
    rfl

namespace Formula

variable {indent step : Nat} {f g : Formula}

/-- The lines of a formula. -/
def rows (indent step : Nat) (f : Formula) : List (List Char) :=
  f.labels.map (outlineRow indent step)

theorem rows_none (value : Expr) :
    (⟨none, value⟩ : Formula).rows indent step = value.rows indent step 0 := by
  simp only [rows, labels, Expr.rows, List.map_map]
  rfl

theorem rows_some (name : String) (value : Expr) :
    (⟨some name, value⟩ : Formula).rows indent step =
      outlineRow indent step (0, targetLabel name) :: value.rows indent step 1 := by
  simp only [rows, labels, Expr.rows, List.map_cons, List.map_map]
  rfl

theorem outlineLines_eq (f : Formula) :
    f.outlineLines indent step = (f.rows indent step).map (· ++ ['\n']) := by
  obtain ⟨target, value⟩ := f
  cases target with
  | none =>
    have hlines := value.outlineLines_eq indent step 0
    rw [Nat.zero_mul, Nat.add_zero] at hlines
    rw [rows_none, ← hlines]
    rfl
  | some name =>
    have hlines := value.outlineLines_eq indent step 1
    rw [Nat.one_mul] at hlines
    rw [rows_some, List.map_cons, ← hlines]
    simp only [outlineRow, Nat.zero_mul, Nat.add_zero]
    rfl

theorem sameText_of_rows (h : f.rows indent step = g.rows indent step) : f.SameText g := by
  obtain ⟨target, value⟩ := f
  obtain ⟨target', value'⟩ := g
  have hvalues {depth : Nat} (h : value.rows indent step depth = value'.rows indent step depth) :
      value.SameText value' :=
    (Expr.sameText_of_rows (congrArg (· ++ []) h)).1
  cases target with
  | none =>
    cases target' with
    | none =>
      rw [rows_none, rows_none] at h
      exact ⟨rfl, hvalues h⟩
    | some name =>
      rw [rows_none, rows_some, Expr.rows_eq] at h
      exact absurd (outlineRow_inj.mp (List.cons.inj h).1) (Expr.label_ne_targetLabel _ _)
  | some name =>
    cases target' with
    | none =>
      rw [rows_none, rows_some, Expr.rows_eq _ _ _ value'] at h
      exact absurd (outlineRow_inj.mp (List.cons.inj h).1).symm (Expr.label_ne_targetLabel _ _)
    | some name' =>
      rw [rows_some, rows_some] at h
      obtain ⟨hname, hrest⟩ := List.cons.inj h
      have hname := Expr.targetLabel_inj.mp (outlineRow_inj.mp hname)
      subst hname
      exact ⟨rfl, hvalues hrest⟩

theorem rows_of_sameText (h : f.SameText g) : f.rows indent step = g.rows indent step := by
  obtain ⟨target, value⟩ := f
  obtain ⟨target', value'⟩ := g
  obtain ⟨rfl, hvalue⟩ : target = target' ∧ value.SameText value' := h
  cases target with
  | none => rw [rows_none, rows_none, Expr.rows_of_sameText hvalue]
  | some name => rw [rows_some, rows_some, Expr.rows_of_sameText hvalue]

theorem not_mem_of_mem_rows (h : f.IsUnbroken) : ∀ line ∈ f.rows indent step, '\n' ∉ line := by
  obtain ⟨target, value⟩ := f
  obtain ⟨hname, hvalue⟩ := h
  intro line hline
  cases target with
  | none =>
    rw [rows_none] at hline
    exact Expr.not_mem_of_mem_rows hvalue hline
  | some name =>
    rw [rows_some] at hline
    rcases List.mem_cons.mp hline with rfl | hline
    · exact Expr.not_mem_outlineRow (by simpa [Expr.targetLabel_eq] using hname name rfl)
    · exact Expr.not_mem_of_mem_rows hvalue hline

theorem splitOn_outline (indent step : Nat) (h : f.IsUnbroken) :
    (f.outline indent step).toList.splitOn '\n' = f.rows indent step ++ [[]] := by
  rw [outline, String.toList_ofList, outlineLines_eq]
  exact splitOn_lines (not_mem_of_mem_rows h)

theorem outline_eq_iff (indent step : Nat) (hf : f.IsUnbroken) (hg : g.IsUnbroken) :
    f.outline indent step = g.outline indent step ↔ f.SameText g := by
  constructor
  · intro h
    have hlines := splitOn_outline indent step hf
    rw [h, splitOn_outline indent step hg] at hlines
    exact sameText_of_rows (List.append_cancel_right hlines).symm
  · intro h
    rw [outline, outline, outlineLines_eq, outlineLines_eq, rows_of_sameText h]

end Formula

/--
The lines of an outline are its nodes in pre-order, each as far to the right as it is deep, and two
outlines drawn the same way are equal exactly if the trees are, up to literals of the same text. The
same holds of formulas, where a target is one more level on the outside.
-/
theorem outline_faithful (indent step : Nat) :
    (∀ e : Expr, e.IsUnbroken →
      (e.outline indent step).toList.splitOn '\n' =
        ((e.nodes 0).map fun node =>
          List.replicate (indent + node.1 * step) ' ' ++ node.2.label) ++ [[]]) ∧
    (∀ e e' : Expr, e.IsUnbroken → e'.IsUnbroken →
      (e.outline indent step = e'.outline indent step ↔ e.SameText e')) ∧
    (∀ f : Formula, f.IsUnbroken →
      (f.outline indent step).toList.splitOn '\n' =
        (f.labels.map fun entry => List.replicate (indent + entry.1 * step) ' ' ++ entry.2)
          ++ [[]]) ∧
    ∀ f g : Formula, f.IsUnbroken → g.IsUnbroken →
      (f.outline indent step = g.outline indent step ↔ f.SameText g) := by
  -- An expression is drawn as the formula without a target.
  have hbare {e : Expr} (h : e.IsUnbroken) : (⟨none, e⟩ : Formula).IsUnbroken :=
    ⟨fun _ hname => (nomatch hname), h⟩
  refine ⟨fun e he => ?_, fun e e' he he' => ?_, fun f hf => Formula.splitOn_outline indent step hf,
    fun f g hf hg => Formula.outline_eq_iff indent step hf hg⟩
  · have hlines := Formula.splitOn_outline indent step (hbare he)
    rw [Formula.rows_none] at hlines
    exact hlines
  · have hiff := Formula.outline_eq_iff indent step (hbare he) (hbare he')
    exact hiff.trans ⟨fun h => h.2, fun h => ⟨rfl, h⟩⟩

/-- Without any indentation, and with a name that reads like the line of another node. -/
theorem outline_faithful_flat :
    let e : Expr := .binary (.column "a)") '-' (.call "RowId: #" (.literal (-0.0)))
    let e' : Expr := .binary (.column "a)") '-' (.call "RowId: #" (.literal 0.0))
    e.IsUnbroken ∧ e'.IsUnbroken ∧
      e.outline 0 0 =
        "BinaryOp (operator: -)\nColRef (name: a))\nFunctionCall (name: RowId: #)\nLiteral: -0\n" ∧
      (e.outline 0 0).toList.splitOn '\n' =
        ["BinaryOp (operator: -)".toList, "ColRef (name: a))".toList,
          "FunctionCall (name: RowId: #)".toList, "Literal: -0".toList, []] ∧
      e.outline 0 0 ≠ e'.outline 0 0 := by
  intro e e'
  have hname : '\n' ∉ "a)".toList := by decide
  have he : e.IsUnbroken := ⟨by decide, hname, by decide, trivial⟩
  have he' : e'.IsUnbroken := ⟨by decide, hname, by decide, trivial⟩
  obtain ⟨hlines, hequal, -⟩ := outline_faithful 0 0
  refine ⟨he, he', by decide +kernel, (hlines e he).trans (by decide +kernel), ?_⟩
  intro h
  have hsame : Expr.SameText (.binary _ _ (.call _ (.literal (-0.0))))
      (.binary _ _ (.call _ (.literal 0.0))) := (hequal e e' he he').mp h
  obtain - | - | - | - | - | ⟨-, hright⟩ := hsame
  obtain - | - | - | - | ⟨hargument⟩ := hright
  obtain ⟨htext⟩ := hargument
  exact absurd htext (by decide +kernel)

end ColumnCalc
