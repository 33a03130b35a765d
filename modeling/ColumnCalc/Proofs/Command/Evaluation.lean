import ColumnCalc.Command.Commands
import ColumnCalc.Proofs.Derive.Prefolding
import ColumnCalc.Proofs.Eval.References
import ColumnCalc.Proofs.Text.Trimming

/-!
# Rows written by hand

A binding is split at its last `=`, so any name can be bound to a cell without one
(`binding_bindingText`), and a record written as bindings has the values of the record. An
expression in such a row comes to what its column would have in the record
(`evaluate_eq_values`), although the one is simplified in one go and the other folded beforehand.
-/

namespace ColumnCalc

namespace Command

/-- A name and a cell as they are given in a binding. -/
def bindingText (pair : String × String) : String :=
  pair.1 ++ "=" ++ pair.2

variable {name value : List Char} {headers cells : List String} {text header cell : String}
  {e : Expr} {i : Nat}

/-! ## Bindings -/

theorem splitBinding?_append (h : '=' ∉ value) :
    splitBinding? (name ++ '=' :: value) = some (name, value) := by
  have hvalue : ∀ c ∈ value.reverse, (c != '=') = true := by
    intro c hc
    rw [bne_iff_ne]
    rintro rfl
    exact h (List.mem_reverse.mp hc)
  have hreverse : (name ++ '=' :: value).reverse = value.reverse ++ '=' :: name.reverse := by simp
  have hafter : ('=' :: name.reverse).dropWhile (· != '=') = '=' :: name.reverse := rfl
  have hbefore : ('=' :: name.reverse).takeWhile (· != '=') = [] := rfl
  simp only [splitBinding?, hreverse, List.dropWhile_append_of_pos hvalue,
    List.takeWhile_append_of_pos hvalue, hafter, hbefore, List.append_nil, List.reverse_reverse]

/-- The name may hold a `=`, the cell may not. -/
theorem binding_bindingText (htrim : Text.trim header = header) (hne : header ≠ "")
    (hcell : '=' ∉ cell.toList) :
    binding (bindingText (header, cell)) = .ok (header, Cell.number cell) := by
  have htext : (bindingText (header, cell)).toList = header.toList ++ '=' :: cell.toList := by
    simp [bindingText]
  have hname : Text.trimList header.toList = header.toList := by
    rw [← String.ofList_inj, String.ofList_toList]
    exact htrim
  have hnonempty : header.toList.isEmpty = false := by simpa using hne
  simp only [binding, htext, splitBinding?_append hcell, hname, hnonempty, String.ofList_toList,
    Bool.false_eq_true, if_false]

/-- The values of bindings are those of the record that they are made of. -/
theorem mapM_binding (hheaders : ∀ h ∈ headers, Text.trim h = h ∧ h ≠ "")
    (hcells : ∀ c ∈ cells, '=' ∉ c.toList) :
    ((headers.zip cells).map bindingText).mapM binding
      = .ok (RowValues.ofRecord headers cells).pairs := by
  rw [mapM_eq_ok_iff, RowValues.ofRecord, List.forall₂_map_left_iff, List.forall₂_map_right_iff,
    List.forall₂_same]
  rintro ⟨header, cell⟩ hpair
  obtain ⟨hheader, hcell⟩ := List.of_mem_zip hpair
  exact binding_bindingText (hheaders header hheader).1 (hheaders header hheader).2
    (hcells cell hcell)

theorem evaluate_of_bindings {target : Option String}
    (hparse : Formula.parse text = .ok ⟨target, e⟩) (hpairs : headers.zip cells ≠ [])
    (hheaders : ∀ h ∈ headers, Text.trim h = h ∧ h ≠ "") (hcells : ∀ c ∈ cells, '=' ∉ c.toList) :
    evaluate text (some i) ((headers.zip cells).map bindingText)
      = ((e.evaluate i (.ofRecord headers cells)).map .literal).mapError .eval := by
  have hsome : ((headers.zip cells).map bindingText).isEmpty = false := by simpa using hpairs
  rw [← Expr.simplify_full, evaluate, hparse, mapM_binding hheaders hcells, hsome]
  rfl

end Command

/-! ## One source -/

namespace Deriver

variable {d : Deriver} {source name : String} {e : Expr} {i : Nat} {row : RowValues}

theorem values_of_ofSources_singleton (hparse : Formula.parse source = .ok ⟨some name, e⟩)
    (hd : ofSources [source] = .ok d) :
    d.values i row = (columnValue i row (name, e)).map ([·]) := by
  have hassignment : assignment? source = some (name, e) := by simp only [assignment?, hparse]
  rw [values_of_ofSources hd, unfoldedValues, List.filterMap_cons, hassignment, List.filterMap_nil,
    List.mapM_cons, List.mapM_nil]
  cases columnValue i row (name, e) with
  | error err => rfl
  | ok v => rfl

/-- A source that has a value in some row makes a deriver. -/
theorem exists_ofSources_singleton {v : Float} (hparse : Formula.parse source = .ok ⟨some name, e⟩)
    (h : e.evaluate i row = .ok v) : ∃ d, ofSources [source] = .ok d := by
  cases hd : ofSources [source] with
  | ok d => exact ⟨d, rfl⟩
  | error err =>
    obtain ⟨source', name', e', _, hmem, hassignment, -, hrows⟩ := evaluate_of_ofSources_error hd
    rw [List.mem_singleton.mp hmem] at hassignment
    simp only [assignment?, hparse] at hassignment
    cases hassignment
    obtain ⟨err', herror⟩ := hrows i row
    cases h.symm.trans herror

end Deriver

/--
An expression in a row written by hand is a number exactly if the deriver of its source has this
number as its value in the record that the row is made of; where it is not, there is no such value,
and both end with an error.
-/
theorem evaluate_eq_values (text name : String) (e : Expr) (i : Nat) (headers cells : List String)
    (hparse : Formula.parse text = .ok ⟨some name, e⟩) (hheader : headers ≠ []) (hcell : cells ≠ [])
    (hheaders : ∀ h ∈ headers, Text.trim h = h ∧ h ≠ "") (hcells : ∀ c ∈ cells, '=' ∉ c.toList) :
    let shown := Command.evaluate text (some i) ((headers.zip cells).map Command.bindingText)
    (∀ v, shown = .ok (.literal v) ↔ ∃ d, Deriver.ofSources [text] = .ok d ∧
      d.values i (.ofRecord headers cells) = .ok [v]) ∧
    ((∀ v, shown ≠ .ok (.literal v)) → (∃ err, shown = .error err) ∧
      ∀ d, Deriver.ofSources [text] = .ok d →
        ∃ err, d.values i (.ofRecord headers cells) = .error err) := by
  intro shown
  have hpairs : headers.zip cells ≠ [] := by simp [List.zip_eq_nil_iff, hheader, hcell]
  have hshown : shown = _ := Command.evaluate_of_bindings hparse hpairs hheaders hcells
  cases hvalue : e.evaluate i (.ofRecord headers cells) with
  | error err =>
    rw [hvalue] at hshown
    have hvalues : ∀ d, Deriver.ofSources [text] = .ok d →
        ∃ err, d.values i (.ofRecord headers cells) = .error err := by
      intro d hd
      rw [Deriver.values_of_ofSources_singleton hparse hd]
      simp only [columnValue, hvalue]
      exact ⟨_, rfl⟩
    rw [hshown]
    refine ⟨fun v => ⟨fun h => ?_, ?_⟩, fun _ => ⟨⟨_, rfl⟩, hvalues⟩⟩
    · cases h
    · rintro ⟨d, hd, hv⟩
      obtain ⟨err', herror⟩ := hvalues d hd
      cases hv.symm.trans herror
  | ok x =>
    rw [hvalue] at hshown
    obtain ⟨d, hd⟩ := Deriver.exists_ofSources_singleton hparse hvalue
    have hvalues : d.values i (.ofRecord headers cells) = .ok [x] := by
      rw [Deriver.values_of_ofSources_singleton hparse hd]
      simp only [columnValue, hvalue]
      rfl
    rw [hshown]
    refine ⟨fun v => ⟨?_, ?_⟩, fun hno => absurd rfl (hno x)⟩
    · intro h
      cases h
      exact ⟨d, hd, hvalues⟩
    · rintro ⟨d', hd', hv⟩
      cases hd.symm.trans hd'
      cases hvalues.symm.trans hv
      rfl

/-- Of two cells with one name the last one counts, as for a record; a name can hold a `=`. -/
theorem evaluate_eq_values_duplicate :
    let headers := ["a", "k=v", "a"]
    let cells := ["1", "x", " 2.5 "]
    let e : Expr := .binary (.column "a") '*' .row
    Formula.parse "y = $a$ * #" = .ok ⟨some "y", e⟩ ∧ headers ≠ [] ∧ cells ≠ [] ∧
    (∀ h ∈ headers, Text.trim h = h ∧ h ≠ "") ∧ (∀ c ∈ cells, '=' ∉ c.toList) ∧
    Command.evaluate "y = $a$ * #" (some 3) ["a=1", "k=v=x", "a= 2.5 "] = .ok (.literal 7.5) := by
  intro headers cells e
  have hparse : Formula.parse "y = $a$ * #" = .ok ⟨some "y", e⟩ := by decide +kernel
  have hheaders : ∀ h ∈ headers, Text.trim h = h ∧ h ≠ "" := by decide +kernel
  have hcells : ∀ c ∈ cells, '=' ∉ c.toList := by decide +kernel
  have hd : Deriver.ofSources ["y = $a$ * #"] = .ok ⟨[⟨"y", "y = $a$ * #", e⟩], []⟩ := by
    decide +kernel
  have hvalue : Deriver.values ⟨[⟨"y", "y = $a$ * #", e⟩], []⟩ 3 (.ofRecord headers cells)
      = .ok [7.5] := by decide +kernel
  refine ⟨hparse, List.cons_ne_nil _ _, List.cons_ne_nil _ _, hheaders, hcells, ?_⟩
  exact ((evaluate_eq_values "y = $a$ * #" "y" e 3 headers cells hparse (List.cons_ne_nil _ _)
    (List.cons_ne_nil _ _) hheaders hcells).1 7.5).mpr ⟨_, hd, hvalue⟩

end ColumnCalc
