import ColumnCalc.Text.Characters
import Mathlib.Data.List.DropRight

/-!
# What trimming leaves

`trimEnd p` splits a text: what it cuts off are characters of the class, and what it leaves does not
end with one. The two facts determine the split. What `trim` leaves neither begins nor ends with a
blank, so trimming it again changes nothing (`trim_trim`).
-/

namespace ColumnCalc

namespace Text

variable {p : Char → Bool} {s t u : List Char}

theorem exists_trimEnd (p : Char → Bool) (s : List Char) :
    ∃ u, (∀ c ∈ u, p c = true) ∧ s = trimEnd p s ++ u :=
  ⟨s.rtakeWhile p, fun _ hc => List.mem_rtakeWhile_imp hc, List.rdropWhile_append_rtakeWhile.symm⟩

theorem not_of_getLast?_trimEnd {c : Char} (h : (trimEnd p s).getLast? = some c) : p c = false := by
  have hne : s.rdropWhile p ≠ [] := by
    rintro hnil
    change (s.rdropWhile p).getLast? = some c at h
    rw [hnil] at h
    cases h
  have hlast := List.rdropWhile_last_not p s hne
  change (s.rdropWhile p).getLast? = some c at h
  rw [List.getLast?_eq_some_getLast hne] at h
  rw [Option.some.inj h] at hlast
  exact Bool.eq_false_iff.mpr hlast

theorem trimEnd_eq_self (ht : ∀ c ∈ t.getLast?, p c = false) : trimEnd p t = t := by
  refine List.rdropWhile_eq_self_iff.mpr fun hne => ?_
  simpa using ht _ (List.getLast?_eq_some_getLast hne)

theorem trimEnd_append (ht : ∀ c ∈ t.getLast?, p c = false) (hu : ∀ c ∈ u, p c = true) :
    trimEnd p (t ++ u) = t := by
  have hrev : ∀ c ∈ u.reverse, p c = true := fun c hc => hu c (List.mem_reverse.mp hc)
  calc trimEnd p (t ++ u) = ((u.reverse ++ t.reverse).dropWhile p).reverse := by simp [trimEnd]
    _ = trimEnd p t := by rw [List.dropWhile_append_of_pos hrev, trimEnd]
    _ = t := trimEnd_eq_self ht

/-! ## Both ends -/

theorem head?_skipBlank (s : List Char) : ∀ c ∈ (skipBlank s).head?, isBlank c = false := by
  intro c hc
  have hnot := List.head?_dropWhile_not isBlank s
  rw [← skipBlank, hc] at hnot
  exact hnot

theorem skipBlank_isSuffix (s : List Char) : skipBlank s <:+ s :=
  List.dropWhile_suffix _

theorem trimList_eq_self (hfirst : ∀ c ∈ s.head?, isBlank c = false)
    (hlast : ∀ c ∈ s.getLast?, isBlank c = false) : trimList s = s := by
  have hskip : skipBlank s = s := by
    cases s with
    | nil => rfl
    | cons c r => exact List.dropWhile_cons_of_neg (by simp [hfirst c rfl])
  rw [trimList, hskip, trimEnd_eq_self hlast]

@[simp]
theorem trimList_trimList (s : List Char) : trimList (trimList s) = trimList s := by
  refine trimList_eq_self (fun c hc => ?_) fun c hc => not_of_getLast?_trimEnd hc
  obtain ⟨u, -, hu⟩ := exists_trimEnd isBlank (skipBlank s)
  have hne : trimList s ≠ [] := by
    rintro hnil
    rw [hnil] at hc
    cases hc
  have hhead : (skipBlank s).head? = (trimList s).head? := by
    rw [hu]
    exact List.head?_append_of_ne_nil _ hne
  exact head?_skipBlank s c (hhead ▸ hc)

@[simp]
theorem trim_trim (s : String) : trim (trim s) = trim s := by
  rw [trim, trim, String.toList_ofList, trimList_trimList]

theorem trimList_of_not_isBlank (h : ∀ c ∈ s, isBlank c = false) : trimList s = s :=
  trimList_eq_self (fun c hc => h c (List.mem_of_mem_head? hc))
    (fun c hc => h c (List.mem_of_mem_getLast? hc))

theorem trim_of_not_isBlank {s : String} (h : ∀ c ∈ s.toList, isBlank c = false) : trim s = s := by
  rw [trim, trimList_of_not_isBlank h, String.ofList_toList]

end Text

end ColumnCalc
