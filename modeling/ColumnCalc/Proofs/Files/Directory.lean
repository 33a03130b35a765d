import Mathlib.Data.List.MinMax
import Mathlib.Order.Nat
import ColumnCalc.Files.Directory

/-!
# Names before and after a file is made

Names lead through the entries of a directory and do not look at bytes, so they lead where they led
when a file is written (`Directory.locate_put`). A file that is made is one more entry, at a path
where a name has found nothing: a name that led to that path leads to the file now, one that led to
a file or folder leads there still, and one that led nowhere leads nowhere
(`Directory.grows_locate`). So opening a file for writing changes that file only, whatever names it
has (`Directory.SameBut`, `Directory.create_eq_ok`).
-/

namespace ColumnCalc

namespace Directory

variable {d : Directory} {entries : List (Path × Entry)} {access : Access} {name other : String}
  {path : Path} {number : Nat} {bytes : Bytes}

/-! ## Bytes -/

theorem lookup_filter_of_ne {α β : Type} [DecidableEq α] {kept dropped : α} (h : kept ≠ dropped)
    (l : List (α × β)) : (l.filter fun p => p.1 ≠ dropped).lookup kept = l.lookup kept := by
  induction l with
  | nil => rfl
  | cons p l ih =>
    by_cases hp : p.1 = dropped
    · have hne : (kept == p.1) = false := by
        rw [hp]
        exact beq_false_of_ne h
      rw [List.filter_cons_of_neg (by simpa using hp), ih, List.lookup_cons, hne]
    · rw [List.filter_cons_of_pos (by simpa using hp), List.lookup_cons, List.lookup_cons, ih]

@[simp]
theorem bytes_put (d : Directory) (number : Nat) (bytes : Bytes) :
    (d.put number bytes).bytes number = bytes := by
  rw [Directory.bytes, put, List.lookup_cons_self, Option.getD_some]

@[simp]
theorem bytes_put_of_ne {kept : Nat} (h : kept ≠ number) :
    (d.put number bytes).bytes kept = d.bytes kept := by
  rw [Directory.bytes, put, List.lookup_cons, beq_false_of_ne h]
  exact congrArg (Option.getD · []) (lookup_filter_of_ne h d.contents)

@[simp]
theorem put_put (d : Directory) (number : Nat) (bytes bytes' : Bytes) :
    (d.put number bytes).put number bytes' = d.put number bytes' := by
  simp [put]

@[simp]
theorem locate_put (d : Directory) (number : Nat) (bytes : Bytes) (access : Access)
    (name : String) : (d.put number bytes).locate access name = d.locate access name :=
  rfl

@[simp]
theorem find?_put (d : Directory) (number : Nat) (bytes : Bytes) (name : String) :
    (d.put number bytes).find? name = d.find? name :=
  rfl

@[simp]
theorem get?_put (h : d.find? name = some (.file number)) (bytes : Bytes) :
    (d.put number bytes).get? name = some bytes := by
  simp [get?, h]

/-! ## Where names lead -/

theorem find?_eq_some_iff {handle : Handle} :
    d.find? name = some handle ↔ d.locate .read name = .ok (.found handle) := by
  unfold find?
  split <;> simp_all

theorem get?_eq_some_iff :
    d.get? name = some bytes ↔ ∃ number, d.find? name = some (.file number) ∧
      d.bytes number = bytes := by
  unfold get?
  split <;> simp_all

/--
Two walks are followed side by side: what relates walks that follow no link, and walks whenever it
relates what follows their links, relates walks that may follow any number of links.
-/
theorem walkLinks_induction {entries entries' : List (Path × Entry)} {access access' : Access}
    {R : (Path → List String → Except FileError Spot) →
      (Path → List String → Except FileError Spot) → Prop}
    (hstop : R (fun _ _ => .error .tooManyLinks) (fun _ _ => .error .tooManyLinks))
    (hwalk : ∀ follow follow', R follow follow' →
      R (walk entries access follow) (walk entries' access' follow')) (links : Nat) :
    R (walkLinks entries access links) (walkLinks entries' access' links) := by
  induction links with
  | zero => exact hwalk _ _ hstop
  | succ links ih => exact hwalk _ _ ih

/-- A file that is found is listed; where nothing is found nothing is listed. -/
def Listed (entries : List (Path × Entry)) : Spot → Prop
  | .found .folder => True
  | .found (.file number) => ∃ path, entries.lookup path = some (.file number)
  | .vacant path => entries.lookup path = none

theorem listed_of_walk {follow : Path → List String → Except FileError Spot}
    (hfollow : ∀ here names spot, follow here names = .ok spot → Listed entries spot) {here : Path}
    {names : List String} {spot : Spot} (h : walk entries access follow here names = .ok spot) :
    Listed entries spot := by
  induction names generalizing here with
  | nil =>
    obtain rfl := Except.ok.inj h
    trivial
  | cons part others ih =>
    simp only [walk] at h
    split at h
    · exact ih h
    split at h
    · cases h
    split at h
    · next hentry =>
      split at h
      · obtain rfl := Except.ok.inj h
        exact hentry
      · cases h
    · exact ih h
    · next hentry =>
      split at h
      · obtain rfl := Except.ok.inj h
        exact ⟨_, hentry⟩
      · cases h
    · exact hfollow _ _ _ h

theorem listed_of_locate {spot : Spot} (h : d.locate access name = .ok spot) :
    Listed d.entries spot := by
  unfold locate at h
  split at h
  · cases h
  · exact @walkLinks_induction d.entries d.entries access access
      (fun follow _ => ∀ here names spot, follow here names = .ok spot → Listed d.entries spot)
      (fun _ _ _ h => by cases h) (fun _ _ hfollow _ _ _ => listed_of_walk hfollow) _ _ _ _ h

/-- A name that can be written leads there for a reader too. -/
theorem walk_read {follow follow' : Path → List String → Except FileError Spot}
    (hfollow : ∀ here names spot, follow here names = .ok spot → follow' here names = .ok spot)
    {here : Path} {names : List String} {spot : Spot}
    (h : walk entries access follow here names = .ok spot) :
    walk entries .read follow' here names = .ok spot := by
  induction names generalizing here with
  | nil => exact h
  | cons part others ih =>
    simp only [walk] at h ⊢
    split at h
    · next hmove =>
      rw [if_pos hmove]
      exact ih h
    · next hmove =>
      split at h
      · cases h
      · rw [if_neg hmove, if_neg (by simp)]
        cases hentry : entries.lookup (behind here part) with
        | none => simpa only [hentry] using h
        | some entry =>
          rw [hentry] at h
          cases entry with
          | folder => exact ih h
          | file number => exact h
          | link target => exact hfollow _ _ _ h

theorem locate_read {spot : Spot} (h : d.locate access name = .ok spot) :
    d.locate .read name = .ok spot := by
  unfold locate at h ⊢
  split at h
  · cases h
  · next hname =>
    rw [if_neg hname]
    exact walkLinks_induction
      (R := fun follow follow' => ∀ here names spot,
        follow here names = .ok spot → follow' here names = .ok spot)
      (fun _ _ _ h => h) (fun _ _ hfollow _ _ _ => walk_read hfollow) _ _ _ _ h

/-! ## A file that is made -/

/-- Where a name leads before and after a file is made at a path. -/
inductive Grows (path : Path) (number : Nat) : Except FileError Spot → Except FileError Spot → Prop
  | found (handle : Handle) : Grows path number (.ok (.found handle)) (.ok (.found handle))
  | vacant {other : Path} (h : other ≠ path) :
    Grows path number (.ok (.vacant other)) (.ok (.vacant other))
  | filled : Grows path number (.ok (.vacant path)) (.ok (.found (.file number)))
  /-- Behind the new file there is no folder, where there was nothing before. -/
  | failed (e e' : FileError) : Grows path number (.error e) (.error e')

theorem grows_walk {follow follow' : Path → List String → Except FileError Spot}
    (hpath : entries.lookup path = none)
    (hfollow : ∀ here names, Grows path number (follow here names) (follow' here names))
    (here : Path) (names : List String) :
    Grows path number (walk entries access follow here names)
      (walk ((path, .file number) :: entries) access follow' here names) := by
  induction names generalizing here with
  | nil => exact .found .folder
  | cons part others ih =>
    simp only [walk]
    split
    · exact ih _
    split
    · exact .failed _ _
    by_cases hhere : behind here part = path
    · rw [hhere, hpath, List.lookup_cons_self]
      by_cases hothers : others = []
      · simpa only [hothers, if_true] using .filled
      · simpa only [hothers, if_false] using .failed _ _
    · rw [List.lookup_cons, beq_false_of_ne hhere]
      cases entries.lookup (behind here part) with
      | none =>
        by_cases hothers : others = []
        · simpa only [hothers, if_true] using .vacant hhere
        · simpa only [hothers, if_false] using .failed _ _
      | some entry =>
        cases entry with
        | folder => exact ih _
        | file number' =>
          by_cases hothers : others = []
          · simpa only [hothers, if_true] using .found _
          · simpa only [hothers, if_false] using .failed _ _
        | link target => exact hfollow _ _

theorem grows_locate (hpath : d.entries.lookup path = none) (bytes : Bytes) (access : Access)
    (name : String) :
    Grows path d.fresh (d.locate access name) ((d.add path bytes).locate access name) := by
  unfold locate
  split
  · exact .failed _ _
  · exact walkLinks_induction
      (R := fun follow follow' => ∀ here names,
        Grows path d.fresh (follow here names) (follow' here names))
      (fun _ _ => .failed _ _) (fun _ _ => grows_walk hpath) _ _ _

theorem lt_fresh (h : d.entries.lookup path = some (.file number)) : number < d.fresh := by
  obtain ⟨before, after, hentries, -⟩ := List.lookup_eq_some_iff.mp h
  have hmem : number ∈ d.entries.map (·.2.number) := by
    simp [hentries, Entry.number]
  exact Nat.lt_succ_of_le (List.le_max_of_le hmem le_rfl)

/-- Only names that led to the new file's path lead somewhere else than before. -/
theorem find?_add_eq_some_iff (hpath : d.entries.lookup path = none) {handle : Handle} :
    (d.add path bytes).find? name = some handle ↔ d.find? name = some handle ∨
      d.locate .read name = .ok (.vacant path) ∧ handle = .file d.fresh := by
  have hgrows := grows_locate hpath bytes .read name
  rw [find?_eq_some_iff, find?_eq_some_iff]
  generalize d.locate .read name = before at hgrows
  generalize (d.add path bytes).locate .read name = after at hgrows
  cases hgrows with
  | found => simp
  | vacant h => simp [h]
  | filled => simp [eq_comm]
  | failed => simp

/-! ## Opening -/

theorem openRead_eq_ok {handle : Handle} (h : d.openRead name = .ok handle) :
    d.find? name = some handle := by
  unfold openRead at h
  split at h
  · cases h
  · cases h
  · cases h
  · next hfound =>
    obtain rfl := Except.ok.inj h
    exact find?_eq_some_iff.mpr hfound

/-- The two directories are the same but for one file, told by one of its names. -/
structure SameBut (name : String) (before after : Directory) : Prop where
  start : after.start = before.start
  refusals : after.refusals = before.refusals
  /-- A name leads where it led. -/
  kept : ∀ {other handle}, before.find? other = some handle → after.find? other = some handle
  /-- A name that leads somewhere new leads to the file. -/
  made : ∀ {other handle}, after.find? other = some handle →
    before.find? other = some handle ∨ after.find? name = some handle
  /-- If the file was not there, no other file has become it. -/
  apart : ∀ {other handle}, before.find? name = none → before.find? other = some handle →
    after.find? name ≠ some handle
  /-- Every other file has its bytes. -/
  bytes : ∀ {number}, after.find? name ≠ some (.file number) →
    after.bytes number = before.bytes number

namespace SameBut

variable {before after : Directory}

theorem refl (name : String) (d : Directory) : SameBut name d d where
  start := rfl
  refusals := rfl
  kept := id
  made := .inl
  apart hnone _ := by simp [hnone]
  bytes _ := rfl

theorem put (h : SameBut name before after) (hname : after.find? name = some (.file number))
    (bytes : Bytes) : SameBut name before (after.put number bytes) where
  start := h.start
  refusals := h.refusals
  kept := h.kept
  made := h.made
  apart := h.apart
  bytes hne := by
    rw [find?_put, hname] at hne
    rw [bytes_put_of_ne (by simpa using hne.symm), h.bytes (by simpa [hname] using hne)]

/-- Which names lead to the file is as before. -/
theorem find?_eq_iff (h : SameBut name before after) {handle : Handle}
    (hother : before.find? other = some handle) :
    after.find? other = after.find? name ↔ before.find? other = before.find? name := by
  rw [h.kept hother, hother]
  cases hname : before.find? name with
  | none => simpa using (h.apart hname hother).symm
  | some handle' => rw [h.kept hname]

/-- A file with no name of the one that has changed has its bytes. -/
theorem bytes_eq (h : SameBut name before after) (hother : before.find? other = some (.file number))
    (hne : before.find? other ≠ before.find? name) : after.bytes number = before.bytes number :=
  h.bytes fun hname => hne ((h.find?_eq_iff hother).mp ((h.kept hother).trans hname.symm))

theorem get?_eq (h : SameBut name before after) (hne : after.find? other ≠ after.find? name) :
    after.get? other = before.get? other := by
  cases hbefore : before.find? other with
  | none =>
    have hafter : after.find? other = none := by
      refine Option.eq_none_iff_forall_ne_some.mpr fun handle hafter => ?_
      rcases h.made hafter with hsome | hname
      · simp [hbefore] at hsome
      · exact hne (hafter.trans hname.symm)
    simp only [get?, hbefore, hafter]
  | some handle =>
    have hafter := h.kept hbefore
    cases handle with
    | folder => simp only [get?, hbefore, hafter]
    | file number =>
      rw [hafter] at hne
      simp only [get?, hbefore, hafter, h.bytes hne.symm]

end SameBut

/-- A file that is made is a file of its own. -/
theorem sameBut_add (hname : d.locate .read name = .ok (.vacant path)) (bytes : Bytes) :
    (d.add path bytes).find? name = some (.file d.fresh) ∧ SameBut name d (d.add path bytes) := by
  have hpath : d.entries.lookup path = none := listed_of_locate hname
  have hfound : (d.add path bytes).find? name = some (.file d.fresh) :=
    (find?_add_eq_some_iff hpath).mpr (.inr ⟨hname, rfl⟩)
  refine ⟨hfound, rfl, rfl, fun h => (find?_add_eq_some_iff hpath).mpr (.inl h), fun h => ?_,
    fun _ hother => ?_, fun hne => ?_⟩
  · exact ((find?_add_eq_some_iff hpath).mp h).imp_right fun ⟨_, hhandle⟩ => hhandle ▸ hfound
  · rw [hfound]
    rintro ⟨rfl⟩
    obtain ⟨path, hlisted⟩ := listed_of_locate (find?_eq_some_iff.mp hother)
    exact absurd (lt_fresh hlisted) (lt_irrefl _)
  · rw [hfound] at hne
    exact bytes_put_of_ne (by simpa using hne.symm)

/-- A file that is open for writing is empty, and opening it has changed no other. -/
theorem create_eq_ok {opened : Directory} (h : d.create name = .ok (opened, number)) :
    opened.find? name = some (.file number) ∧ opened.put number [] = opened ∧
      SameBut name d opened := by
  unfold create at h
  split at h
  · cases h
  · cases h
  · cases h
  · next hlocate =>
    cases h
    have hname := find?_eq_some_iff.mpr (locate_read hlocate)
    exact ⟨hname, put_put _ _ _ _, (SameBut.refl name d).put hname []⟩
  · next hlocate =>
    cases h
    obtain ⟨hname, hsame⟩ := sameBut_add (locate_read hlocate) []
    exact ⟨hname, put_put _ _ _ _, hsame⟩

end Directory

end ColumnCalc
