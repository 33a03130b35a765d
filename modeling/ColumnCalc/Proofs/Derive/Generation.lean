import ColumnCalc.Proofs.Csv.Decoding
import ColumnCalc.Proofs.Derive.Uniformity
import ColumnCalc.Proofs.Eval.References
import ColumnCalc.Proofs.Expr.Mentions

/-!
# Rows without a table

Rows can be generated if no source mentions a column; which one does, and which column it mentions
first, shows in the sources as they were written (`Deriver.firstReference?_of_ofSources`). Then the
cells of a table do not matter either, and what is generated is what a table with as many records
gives (`Deriver.transformFrom_of_noReference`).
-/

namespace ColumnCalc

/-- The column that a source defines and the first column that its text mentions. -/
def firstMention? (source : String) : Option (String × String) :=
  (assignment? source).bind fun a => (mentions source.toList).head?.map fun name => (a.1, name)

theorem columns_of_assignment? {source name : String} {e : Expr}
    (h : assignment? source = some (name, e)) : e.columns = mentions source.toList := by
  unfold assignment? at h
  split at h
  · rename_i hparse
    cases h
    exact columns_of_formula_parse hparse
  · cases h

namespace Deriver

variable {d : Deriver} {sources : List String} {headers cells : List String} {i first count : Nat}
  {output : Bytes} {error : DeriveError}

/-! ## References -/

theorem findSome?_of_isFolded {columns : List DerivedColumn} {assignments : List (String × Expr)}
    (h : List.Forall₂ IsFolded columns assignments) :
    columns.findSome? (fun column => column.expr.columns.head?.map (column.name, ·))
      = assignments.findSome? fun a => a.2.columns.head?.map (a.1, ·) := by
  induction h with
  | nil => rfl
  | cons hcolumn _ ih =>
    obtain ⟨hname, hfold⟩ := hcolumn
    rw [List.findSome?_cons, List.findSome?_cons, ih, hname, Expr.columns_of_simplify rfl hfold]

/-- The first reference of the folded columns is the first mention in the sources. -/
theorem firstReference?_of_ofSources (h : ofSources sources = .ok d) :
    d.firstReference?.map (fun p => (p.1.name, p.2)) = sources.findSome? firstMention? := by
  have hmention : ∀ source ∈ sources, ((assignment? source).bind fun a =>
      a.2.columns.head?.map (a.1, ·)) = firstMention? source := by
    intro source _
    unfold firstMention?
    cases hsource : assignment? source with
    | none => rfl
    | some a => rw [Option.bind_some, Option.bind_some, columns_of_assignment? hsource]
  calc d.firstReference?.map (fun p => (p.1.name, p.2))
      = d.columns.findSome? (fun column => column.expr.columns.head?.map (column.name, ·)) := by
        simp only [firstReference?, List.map_findSome?, Function.comp_def, Option.map_map]
    _ = (sources.filterMap assignment?).findSome? fun a => a.2.columns.head?.map (a.1, ·) :=
        findSome?_of_isFolded (forall₂_ofSources h)
    _ = (sources.filterMap firstMention?).head? := by
        rw [← List.head?_filterMap, List.filterMap_filterMap, List.filterMap_congr hmention]
    _ = sources.findSome? firstMention? := List.head?_filterMap

theorem columns_of_noReference (h : d.firstReference? = none) :
    ∀ column ∈ d.columns, column.expr.columns = [] := by
  intro column hcolumn
  simpa using List.findSome?_eq_none_iff.mp h column hcolumn

/-! ## Rows -/

/-- Columns without references have the same values, or the same error, whatever the cells are. -/
theorem values_of_noReference (h : d.firstReference? = none) (v w : RowValues) :
    d.values i v = d.values i w := by
  rw [values_eq_mapM, values_eq_mapM]
  refine mapM_congr fun column hcolumn => ?_
  have hcongr : column.expr.evaluate i v = column.expr.evaluate i w := by
    refine Expr.evaluate_congr fun name hname => ?_
    rw [columns_of_noReference h column hcolumn] at hname
    cases hname
  simp only [columnValue, hcongr]

theorem writeRow_of_noReference (h : d.firstReference? = none) :
    d.writeRow ⟨.all, true⟩ headers i cells = d.writeRow ⟨.all, true⟩ [] i [] := by
  unfold writeRow
  rw [values_of_noReference h (.ofRecord headers cells) (.ofRecord [] [])]
  rfl

/-- A run over the records of a table writes the rows without cells and ends as these do. -/
theorem transformFrom_of_noReference (h : d.firstReference? = none) (headers : List String)
    (records : List (List String)) (first : Nat) :
    d.transformFrom ⟨.all, true⟩ headers first ⟨first, first⟩ (records.map .ok)
      = match d.writeBareRows first records.length with
        | (output, none) => ⟨output, .ok ⟨first + records.length, first + records.length⟩⟩
        | (output, some error) => ⟨output, .error error⟩ := by
  induction records generalizing first with
  | nil => rfl
  | cons cells records ih =>
    rw [List.map_cons, List.length_cons]
    cases hrow : d.writeRow ⟨.all, true⟩ [] first [] with
    | error error =>
      rw [transformFrom_cons_failed (RowRange.selects_all first)
        ((writeRow_of_noReference h).trans hrow)]
      simp only [writeBareRows, hrow]
    | ok row =>
      rw [transformFrom_cons_selected (RowRange.selects_all first)
        ((writeRow_of_noReference h).trans hrow)]
      show (d.transformFrom _ headers (first + 1) ⟨first + 1, first + 1⟩ _).behind row = _
      rw [ih, Nat.add_right_comm]
      simp only [writeBareRows, hrow]
      obtain ⟨output, _ | error⟩ := d.writeBareRows (first + 1) records.length
      · rfl
      · rfl

theorem exists_row_of_writeBareRows (h : d.writeBareRows first count = (output, some error)) :
    ∃ i column e, error = .row i column e := by
  induction count generalizing first output with
  | zero => cases h
  | succ count ih =>
    simp only [writeBareRows] at h
    split at h
    · rename_i hrow
      cases h
      obtain ⟨_, column, _, e, -, -, -, rfl⟩ :=
        values_eq_error_iff.mp (writeRow_eq_error_iff.mp hrow)
      exact ⟨first, column.name, e, rfl⟩
    · cases hrest : d.writeBareRows (first + 1) count with
      | mk output' error' =>
        rw [hrest] at h
        cases h
        exact ih hrest

end Deriver

/--
Whether rows can be generated shows in the sources. If one that is kept mentions a column, whatever
comes of it, nothing is written and the first such source is the error, with the column that its
text mentions first. Otherwise the rows are those that any text with as many records gives without
its own cells: the same bytes, and the same end.
-/
theorem generate_eq_transform (sources : List String) (d : Deriver) (n : Nat)
    (hd : Deriver.ofSources sources = .ok d) :
    (∀ name mentioned, sources.findSome? firstMention? = some (name, mentioned) →
      d.generate n = ⟨[], .error (.row 0 name (.columnNotFound mentioned))⟩) ∧
    (sources.findSome? firstMention? = none → ∀ text : String,
      (Csv.Table.ofBytes (Text.encode text)).records.length = n →
      (∃ output, d.generate n = ⟨output, .ok ⟨0, n⟩⟩ ∧
        d.transform ⟨.all, true⟩ (Text.encode text) = ⟨output, .ok ⟨n, n⟩⟩) ∨
      ∃ output i column e, d.generate n = ⟨output, .error (.row i column e)⟩ ∧
        d.transform ⟨.all, true⟩ (Text.encode text) = ⟨output, .error (.row i column e)⟩) := by
  rw [← Deriver.firstReference?_of_ofSources hd]
  constructor
  · intro name mentioned h
    obtain ⟨⟨column, _⟩, hfirst, hpair⟩ := Option.map_eq_some_iff.mp h
    cases hpair
    simp only [Deriver.generate, hfirst]
  · intro h text hlength
    have hnone : d.firstReference? = none := Option.map_eq_none_iff.mp h
    obtain ⟨headers, records, htable⟩ := Csv.Table.exists_ofBytes_encode text
    rw [htable, List.length_map] at hlength
    have hrun := Deriver.transformFrom_of_noReference hnone headers records 0
    rw [Deriver.transform_of_table htable, hrun, hlength, Nat.zero_add]
    simp only [Deriver.generate, hnone]
    cases hrows : d.writeBareRows 0 n with
    | mk output error =>
      cases error with
      | none => exact .inl ⟨_, rfl, rfl⟩
      | some error =>
        obtain ⟨i, column, e, rfl⟩ := Deriver.exists_row_of_writeBareRows hrows
        exact .inr ⟨_, i, column, e, rfl, rfl⟩

/-- A source that cannot be read is passed over, and a mention counts although zero hides it. -/
theorem generate_eq_transform_hidden_mention :
    let mentioning : Deriver := ⟨[⟨"b", "b = #", .row⟩, ⟨"c", "c = f(0 * $x y $) - $z$",
      .binary (.call "f" (.binary (.literal 0.0) '*' (.column "x y"))) '-' (.column "z")⟩],
      [⟨"a = $u$ +", .unreadable (.single .noAlternative [])⟩]⟩
    let bare : Deriver := ⟨[⟨"b", "b = # / 2", .binary .row '/' (.literal 2.0)⟩], []⟩
    let text := "x,y\n\n?\n\"1\n\",2,3"
    Deriver.ofSources ["a = $u$ +", "b = #", "c = f(0 * $x y $) - $z$"] = .ok mentioning ∧
    mentioning.generate 7 = ⟨[], .error (.row 0 "c" (.columnNotFound "x y"))⟩ ∧
    Deriver.ofSources ["b = # / 2"] = .ok bare ∧
    (Csv.Table.ofBytes (Text.encode text)).records.length = 2 ∧
    bare.transform ⟨.all, true⟩ (Text.encode text) = ⟨(bare.generate 2).output, .ok ⟨2, 2⟩⟩ := by
  intro mentioning bare text
  have hmentioning : Deriver.ofSources ["a = $u$ +", "b = #", "c = f(0 * $x y $) - $z$"]
      = .ok mentioning := by decide +kernel
  have hbare : Deriver.ofSources ["b = # / 2"] = .ok bare := by decide +kernel
  have hlength : (Csv.Table.ofBytes (Text.encode text)).records.length = 2 := by decide +kernel
  have hfirst : ["a = $u$ +", "b = #", "c = f(0 * $x y $) - $z$"].findSome? firstMention?
      = some ("c", "x y") := by decide +kernel
  have hnone : ["b = # / 2"].findSome? firstMention? = none := by decide +kernel
  have hresult : (bare.generate 2).result = .ok ⟨0, 2⟩ := by decide +kernel
  refine ⟨hmentioning, (generate_eq_transform _ _ 7 hmentioning).1 _ _ hfirst, hbare, hlength, ?_⟩
  rcases (generate_eq_transform _ _ 2 hbare).2 hnone text hlength with
    ⟨output, hgenerate, htransform⟩ | ⟨output, i, column, e, hgenerate, -⟩
  · rw [htransform, hgenerate]
  · rw [hgenerate] at hresult
    cases hresult

end ColumnCalc
