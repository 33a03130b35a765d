import Mathlib.Data.List.Induction
import ColumnCalc.Command.Commands
import ColumnCalc.Proofs.Metrics.Accepted

/-!
# Members of the JSON report

An object has one member for each name: it stands where the name was put first and has the value
that was put last (`Json.Keeps`). `Keeps` is an invariant of putting (`Json.Keeps.put`).

So the JSON report says the same as the text report if no two columns have the same name, and of
columns with one name it has only the last one (`json_report_members`).
-/

namespace ColumnCalc

/-! ## Distinct names -/

section
variable {α : Type} [DecidableEq α] {as : List α}

theorem eraseDups_concat (as : List α) (a : α) :
    (as ++ [a]).eraseDups = if a ∈ as then as.eraseDups else as.eraseDups ++ [a] := by
  rw [List.eraseDups_append]
  by_cases ha : a ∈ as
  · simp [List.removeAll, ha]
  · simp [List.removeAll, ha, List.eraseDups_cons]

theorem nodup_eraseDups (as : List α) : as.eraseDups.Nodup := by
  induction as using List.reverseRecOn with
  | nil => exact List.nodup_nil
  | append_singleton as a ih =>
    rw [eraseDups_concat]
    split
    · exact ih
    · rename_i ha
      rw [← List.concat_eq_append, List.nodup_concat]
      exact ⟨List.mem_eraseDups.not.mpr ha, ih⟩

end

namespace Json

variable {name : String} {value : Json} {members kept : List (String × Json)}

/-! ## Putting one member -/

theorem map_fst_put (name : String) (value : Json) (members : List (String × Json)) :
    (put name value members).map Prod.fst = if name ∈ members.map Prod.fst then
      members.map Prod.fst else members.map Prod.fst ++ [name] := by
  induction members with
  | nil => rfl
  | cons member others ih =>
    unfold put
    by_cases hname : member.1 = name
    · simp [hname]
    · rw [if_neg hname, List.map_cons, ih]
      by_cases hmem : name ∈ others.map Prod.fst
      · simp [hmem]
      · simp [hmem, Ne.symm hname]

theorem put_of_not_mem (h : name ∉ members.map Prod.fst) :
    put name value members = members ++ [(name, value)] := by
  induction members with
  | nil => rfl
  | cons member others ih =>
    obtain ⟨hne, hothers⟩ := List.ne_and_not_mem_of_not_mem_cons h
    rw [put, if_neg (Ne.symm hne), ih hothers, List.cons_append]

/-- The name has the new value, and every other name the one it had. -/
theorem mem_put_iff (h : (members.map Prod.fst).Nodup) {n : String} {v : Json} :
    (n, v) ∈ put name value members ↔
      n = name ∧ v = value ∨ n ≠ name ∧ (n, v) ∈ members := by
  induction members with
  | nil => simp [put]
  | cons member others ih =>
    obtain ⟨hfirst, hothers⟩ := List.nodup_cons.mp h
    unfold put
    by_cases hname : member.1 = name
    · have habsent : (n, v) ∈ others → n ≠ name := by
        rintro hmem rfl
        exact hfirst (List.mem_map.mpr ⟨_, hmem, hname.symm⟩)
      rw [if_pos hname, List.mem_cons, Prod.mk.injEq, List.mem_cons]
      constructor
      · rintro (hnew | hmem)
        · exact .inl hnew
        · exact .inr ⟨habsent hmem, .inr hmem⟩
      · rintro (hnew | ⟨hne, rfl | hmem⟩)
        · exact .inl hnew
        · exact absurd hname hne
        · exact .inr hmem
    · rw [if_neg hname, List.mem_cons, ih hothers, List.mem_cons]
      constructor
      · rintro (rfl | hnew | ⟨hne, hmem⟩)
        · exact .inr ⟨hname, .inl rfl⟩
        · exact .inl hnew
        · exact .inr ⟨hne, .inr hmem⟩
      · rintro (hnew | ⟨hne, rfl | hmem⟩)
        · exact .inr (.inl hnew)
        · exact .inl rfl
        · exact .inr (.inr ⟨hne, hmem⟩)

/-! ## Putting members one after another -/

/-- No member of this name comes behind. -/
def IsLast (members : List (String × Json)) (name : String) (value : Json) : Prop :=
  ∃ front back, members = front ++ (name, value) :: back ∧ name ∉ back.map Prod.fst

/-- What an object keeps of its members: each name in its first place, with its last value. -/
structure Keeps (members kept : List (String × Json)) : Prop where
  names : kept.map Prod.fst = (members.map Prod.fst).eraseDups
  mem_iff : ∀ name value, (name, value) ∈ kept ↔ IsLast members name value

theorem isLast_concat {n : String} {v : Json} : IsLast (members ++ [(name, value)]) n v ↔
    n = name ∧ v = value ∨ n ≠ name ∧ IsLast members n v := by
  constructor
  · rintro ⟨front, back, hsplit, hback⟩
    rcases List.eq_nil_or_concat back with rfl | ⟨back, member, rfl⟩
    · obtain ⟨-, hlast⟩ := List.append_inj' hsplit rfl
      cases hlast
      exact .inl ⟨rfl, rfl⟩
    · rw [List.concat_eq_append, ← List.cons_append, ← List.append_assoc] at hsplit
      obtain ⟨rfl, hlast⟩ := List.append_inj' hsplit rfl
      cases hlast
      rw [List.concat_eq_append, List.map_append, List.mem_append, not_or] at hback
      exact .inr ⟨by simpa using hback.2, front, back, rfl, hback.1⟩
  · rintro (⟨rfl, rfl⟩ | ⟨hne, front, back, rfl, hback⟩)
    · exact ⟨members, [], rfl, List.not_mem_nil⟩
    · exact ⟨front, back ++ [(name, value)], by simp, by simp [hne, hback]⟩

theorem Keeps.put (h : Keeps members kept) (name : String) (value : Json) :
    Keeps (members ++ [(name, value)]) (put name value kept) where
  names := by
    rw [map_fst_put, List.map_append, List.map_singleton, eraseDups_concat, h.names]
    simp only [List.mem_eraseDups]
  mem_iff n v := by
    have hnodup : (kept.map Prod.fst).Nodup := h.names ▸ nodup_eraseDups _
    rw [mem_put_iff hnodup, h.mem_iff, isLast_concat]

theorem keeps_foldl (members : List (String × Json)) :
    Keeps members (members.foldl (fun all member => Json.put member.1 member.2 all) []) := by
  induction members using List.reverseRecOn with
  | nil => exact ⟨rfl, fun name value => by simp [IsLast]⟩
  | append_singleton members member ih =>
    rw [List.foldl_append]
    exact ih.put member.1 member.2

theorem exists_keeps (members : List (String × Json)) :
    ∃ kept, ofMembers members = object kept ∧ Keeps members kept :=
  ⟨_, rfl, keeps_foldl members⟩

theorem foldl_put_of_nodup (h : (members.map Prod.fst).Nodup) :
    members.foldl (fun all member => Json.put member.1 member.2 all) [] = members := by
  induction members using List.reverseRecOn with
  | nil => rfl
  | append_singleton members member ih =>
    rw [List.map_append, List.map_singleton, ← List.concat_eq_append, List.nodup_concat] at h
    rw [List.foldl_append, ih h.2]
    exact put_of_not_mem h.1

theorem ofMembers_eq_object_iff :
    ofMembers members = object members ↔ (members.map Prod.fst).Nodup := by
  constructor
  · intro h
    obtain ⟨kept, hkept, hkeeps⟩ := exists_keeps members
    cases hkept.symm.trans h
    exact hkeeps.names ▸ nodup_eraseDups _
  · intro h
    rw [ofMembers, foldl_put_of_nodup h]

end Json

/-! ## Numbers -/

section
variable {layout : Json.Layout} {depth : Nat} {v : Float}

theorem Json.chars_number_of_not_finite (h : v.isNaN = true ∨ v.isInf = true) :
    (Json.number v).chars layout depth = ['n', 'u', 'l', 'l'] := by
  rw [Json.chars, Number.json?, if_pos (Bool.or_eq_true_iff.mpr h), Option.getD_none]

theorem Json.read?_chars_number (hnan : v.isNaN = false) (hinf : v.isInf = false) :
    Number.read? ((Json.number v).chars layout depth) = some v := by
  have hfinite : ¬ (v.isNaN || v.isInf) = true := by
    rw [hnan, hinf]
    exact Bool.false_ne_true
  obtain ⟨text, htext⟩ : ∃ text, Number.json? v = some text := ⟨_, if_neg hfinite⟩
  rw [Json.chars, htext, Option.getD_some]
  exact Number.read?_json htext

end

/-! ## Reports -/

namespace ColumnMetrics

theorem toJson_eq (m : ColumnMetrics) : m.toJson = .object [("min", .number m.least),
    ("max", .number m.greatest), ("avg", .number m.average), ("count", .count m.count)] :=
  Json.ofMembers_eq_object_iff.mpr (by simp)

end ColumnMetrics

namespace Metrics

variable {range : RowRange} {input : Bytes} {metrics : List ColumnMetrics}

/-- The members that are put for a report. -/
def members (metrics : List ColumnMetrics) : List (String × Json) :=
  metrics.map fun m => (m.name, m.toJson)

@[simp]
theorem map_fst_members (metrics : List ColumnMetrics) :
    (members metrics).map Prod.fst = metrics.map (·.name) := by
  rw [members, List.map_map]
  rfl

theorem isLast_members_iff {name : String} {value : Json} :
    Json.IsLast (members metrics) name value ↔ ∃ front m back, metrics = front ++ m :: back ∧
      m.name = name ∧ name ∉ back.map (·.name) ∧ value = m.toJson := by
  constructor
  · rintro ⟨front, back, hsplit, hback⟩
    obtain ⟨front, rest, rfl, rfl, hrest⟩ := List.map_eq_append_iff.mp hsplit
    obtain ⟨m, back, rfl, hm, rfl⟩ := List.map_eq_cons_iff.mp hrest
    cases hm
    exact ⟨front, m, back, rfl, rfl, map_fst_members back ▸ hback, rfl⟩
  · rintro ⟨front, m, back, rfl, rfl, hback, rfl⟩
    refine ⟨members front, members back, ?_, map_fst_members back ▸ hback⟩
    simp only [members, List.map_append, List.map_cons]

/-- There is one entry for each header. -/
theorem map_name_of_compute (h : compute range input = .ok metrics) :
    (Csv.Table.ofBytes input).headers = .ok (metrics.map (·.name)) := by
  obtain ⟨headers, hheaders, h⟩ := bind_eq_ok_iff.mp h
  dsimp only at h
  split at h
  · cases h
  · cases h
    refine hheaders.trans (congrArg _ (Eq.symm (map_name_ofRows fun row hrow => ?_)))
    obtain ⟨_, -, haccepted⟩ := List.mem_filterMap.mp hrow
    exact length_of_accepted? haccepted

end Metrics

/--
The text report has a paragraph for each header. The JSON report has a member for each name of a
header, where the name comes first, and the member tells of the last column of that name; so it
tells of all columns exactly if no name is repeated. A number that is not finite is `null`, and any
other is read back from its text.
-/
theorem json_report_members (range : RowRange) (input : Bytes) (metrics : List ColumnMetrics)
    (h : Metrics.compute range input = .ok metrics) :
    ∃ (headers : List String) (members : List (String × Json)),
      (Csv.Table.ofBytes input).headers = .ok headers ∧ metrics.map (·.name) = headers ∧
      Command.metrics input range none = .ok (String.join (metrics.map (·.paragraph))) ∧
      (∀ layout, Command.metrics input range (some layout)
        = .ok ((Json.object members).text layout ++ "\n")) ∧
      Metrics.toJson metrics = .object members ∧
      members.map Prod.fst = headers.eraseDups ∧
      (∀ name value, (name, value) ∈ members ↔ ∃ front m back, metrics = front ++ m :: back ∧
        m.name = name ∧ name ∉ back.map (·.name) ∧
        value = .object [("min", .number m.least), ("max", .number m.greatest),
          ("avg", .number m.average), ("count", .count m.count)]) ∧
      (members = metrics.map (fun m => (m.name, m.toJson)) ↔ headers.Nodup) ∧
      ∀ layout depth v,
        ((v.isNaN = true ∨ v.isInf = true) →
          (Json.number v).chars layout depth = ['n', 'u', 'l', 'l']) ∧
        (v.isNaN = false → v.isInf = false →
          Number.read? ((Json.number v).chars layout depth) = some v) := by
  obtain ⟨members, hobject, hkeeps⟩ := Json.exists_keeps (Metrics.members metrics)
  refine ⟨metrics.map (·.name), members, Metrics.map_name_of_compute h, rfl, ?_, fun layout => ?_,
    hobject, ?_, fun name value => ?_, ?_, fun layout depth v =>
    ⟨Json.chars_number_of_not_finite, Json.read?_chars_number⟩⟩
  · rw [Command.metrics, h]
    rfl
  · rw [Command.metrics, h, ← hobject]
    rfl
  · rw [hkeeps.names, Metrics.map_fst_members]
  · simp only [hkeeps.mem_iff, Metrics.isLast_members_iff, ColumnMetrics.toJson_eq]
  · rw [← Metrics.map_fst_members, ← Json.ofMembers_eq_object_iff, hobject, Json.object.injEq]
    rfl

/-- Two of three columns have one name, and none has a least number. -/
theorem json_report_members_repeated :
    let input := Text.encode "a,b,a\n1,2,3\n"
    let a := ColumnMetrics.start "a"
    let b := ColumnMetrics.start "b"
    Metrics.compute (.of 5 none 1) input = .ok [a, b, a] ∧ ¬ ["a", "b", "a"].Nodup ∧
    ∃ members, Metrics.toJson [a, b, a] = .object members ∧
      members.map Prod.fst = ["a", "b"] ∧
      members ≠ [("a", a.toJson), ("b", b.toJson), ("a", a.toJson)] ∧
      ∀ layout depth, (Json.number a.least).chars layout depth = ['n', 'u', 'l', 'l'] := by
  intro input a b
  have hcompute : Metrics.compute (.of 5 none 1) input = .ok [a, b, a] := by decide +kernel
  have hrepeated : ¬ ["a", "b", "a"].Nodup := by decide
  obtain ⟨headers, members, hheaders, rfl, -, -, hobject, hnames, -, hall, hnumbers⟩ :=
    json_report_members _ _ _ hcompute
  refine ⟨hcompute, hrepeated, members, hobject, hnames, fun hmembers => ?_, fun layout depth => ?_⟩
  · exact hrepeated (hall.mp hmembers)
  · exact (hnumbers layout depth a.least).1 (.inl (by decide))

/-- Of two columns with one name the JSON report leaves the first one out, the text report none. -/
theorem column_lost_of_repeated_header :
    let input := Text.encode "a,a\n1,2\n"
    let first : ColumnMetrics := ⟨"a", 1.0, 1.0, 1.0, 1⟩
    let second : ColumnMetrics := ⟨"a", 2.0, 2.0, 2.0, 1⟩
    Metrics.compute .all input = .ok [first, second] ∧
    Metrics.toJson [first, second] = .object [("a", second.toJson)] ∧
    Metrics.toJson [first, second] ≠ .object [("a", first.toJson), ("a", second.toJson)] ∧
    (Command.metrics input .all none).toOption = some (first.paragraph ++ second.paragraph) ∧
    (Command.metrics input .all (some .compact)).toOption
      = some "\x7b\"a\":\x7b\"min\":2.0,\"max\":2.0,\"avg\":2.0,\"count\":1\x7d\x7d\n" := by
  intro input first second
  have hlost : Metrics.toJson [first, second] = .object [("a", second.toJson)] := rfl
  refine ⟨by decide +kernel, hlost, fun h => ?_, by decide +kernel, by decide +kernel⟩
  have hlength := congrArg List.length (Json.object.inj (hlost.symm.trans h))
  exact absurd hlength (by simp)

end ColumnCalc
