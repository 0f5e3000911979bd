import Mathlib.Data.List.Nodup
import Mathlib.Data.String.Basic

/-!
Stable sorting.  Sorting and filtering can be exchanged, so elements that are equal in the order
keep their places relative to one another; and an ordered list with these places is unique.
Elements that are sorted by different texts have only one order.
-/
namespace ClassChart

section

variable {β : Type} {le : β → β → Bool}
  (htrans : ∀ a b c, le a b = true → le b c = true → le a c = true)
  (htotal : ∀ a b, (le a b || le b a) = true)

include htrans htotal

/-- The first of the elements to be sorted stands before those that are above it. -/
theorem mergeSort_cons_eq (x : β) (xs : List β) :
    (x :: xs).mergeSort le =
      (xs.mergeSort le).filter (!le x ·) ++ x :: (xs.mergeSort le).filter (le x ·) := by
  obtain ⟨before, after, hsort, hrest, hbefore⟩ := List.mergeSort_cons htrans htotal x xs
  have hsorted := List.pairwise_mergeSort htrans htotal (x :: xs)
  rw [hsort, List.pairwise_append, List.pairwise_cons] at hsorted
  have hafter : ∀ b ∈ after, le x b = true := hsorted.2.1.1
  have hnone : after.filter (!le x ·) = [] := by simpa [List.filter_eq_nil_iff] using hafter
  have hnone' : before.filter (le x ·) = [] := by simpa [List.filter_eq_nil_iff] using hbefore
  rw [hsort, hrest, List.filter_append, List.filter_append, hnone, hnone',
    List.filter_eq_self.mpr hbefore, List.filter_eq_self.mpr hafter, List.append_nil,
    List.nil_append]

/-- A stable sort and a filter can be exchanged. -/
theorem filter_mergeSort (keep : β → Bool) (xs : List β) :
    (xs.mergeSort le).filter keep = (xs.filter keep).mergeSort le := by
  induction xs with
  | nil => simp
  | cons x rest ih =>
      by_cases hx : keep x = true
      · rw [mergeSort_cons_eq htrans htotal, List.filter_append, List.filter_cons_of_pos hx,
          List.filter_comm keep, List.filter_comm keep, ih, List.filter_cons_of_pos hx,
          mergeSort_cons_eq htrans htotal]
      · obtain ⟨before, after, hsort, hrest, -⟩ := List.mergeSort_cons htrans htotal x rest
        rw [hsort, List.filter_append, List.filter_cons_of_neg hx, List.filter_cons_of_neg hx,
          ← ih, hrest, List.filter_append]

/-- Elements that are equal in the order keep their places relative to one another. -/
theorem filter_alike_mergeSort (a : β) (xs : List β) :
    (xs.mergeSort le).filter (fun b => le a b && le b a) =
      xs.filter fun b => le a b && le b a := by
  rw [filter_mergeSort htrans htotal]
  apply List.mergeSort_of_pairwise
  apply List.Pairwise.imp_mem.mpr
  apply List.pairwise_of_forall
  intro b c hb hc
  simp only [List.mem_filter, Bool.and_eq_true] at hb hc
  exact htrans b a c hb.2.2 hc.2.1

end

section

variable {β : Type} {le : β → β → Bool} (hrefl : ∀ a, le a a = true) {xs ys : List β}

include hrefl

/-- Lists in which every element has the same elements alike to it have the same elements. -/
theorem mem_iff_of_filter_alike_eq
    (halike : ∀ a, xs.filter (fun b => le a b && le b a) = ys.filter fun b => le a b && le b a)
    (a : β) : a ∈ xs ↔ a ∈ ys := by
  have hself := congrArg (a ∈ ·) (halike a)
  simpa [List.mem_filter, hrefl] using hself

/-- An ordered list is determined by the places that elements equal in the order have relative to
one another. -/
theorem eq_of_pairwise_of_filter_alike_eq
    (hxs : xs.Pairwise fun a b => le a b = true) (hys : ys.Pairwise fun a b => le a b = true)
    (halike : ∀ a, xs.filter (fun b => le a b && le b a) = ys.filter fun b => le a b && le b a) :
    xs = ys := by
  induction xs generalizing ys with
  | nil =>
      symm
      apply List.eq_nil_iff_forall_not_mem.mpr
      intro a ha
      simpa using (mem_iff_of_filter_alike_eq hrefl halike a).mpr ha
  | cons x xs ih =>
      have hmem := mem_iff_of_filter_alike_eq hrefl halike
      cases ys with
      | nil => simpa using (hmem x).mp List.mem_cons_self
      | cons y ys =>
          obtain ⟨hfirst, hxs'⟩ := List.pairwise_cons.mp hxs
          obtain ⟨hfirst', hys'⟩ := List.pairwise_cons.mp hys
          -- Each of the first elements is in the other list, so they are equal in the order.
          have hxy : le x y = true := by
            rcases List.mem_cons.mp ((hmem y).mpr List.mem_cons_self) with rfl | hy
            · exact hrefl y
            · exact hfirst y hy
          have hyx : le y x = true := by
            rcases List.mem_cons.mp ((hmem x).mp List.mem_cons_self) with rfl | hx
            · exact hrefl x
            · exact hfirst' x hx
          have hheads := halike x
          simp only [List.filter_cons, hrefl, hxy, hyx, Bool.and_self, if_true] at hheads
          obtain ⟨rfl, -⟩ := List.cons.inj hheads
          apply congrArg (x :: ·)
          apply ih hxs' hys'
          intro a
          have ha := halike a
          simp only [List.filter_cons] at ha
          split at ha
          · exact (List.cons.inj ha).2
          · exact ha

end

/-! Sorting by a text. -/

section

variable {β : Type} (key : β → String)

theorem isLE_compare_trans (a b c : β) (hab : (compare (key a) (key b)).isLE = true)
    (hbc : (compare (key b) (key c)).isLE = true) : (compare (key a) (key c)).isLE = true :=
  Std.TransCmp.isLE_trans hab hbc

theorem isLE_compare_total (a b : β) :
    ((compare (key a) (key b)).isLE || (compare (key b) (key a)).isLE) = true := by
  have hswap : compare (key b) (key a) = (compare (key a) (key b)).swap := Std.OrientedCmp.eq_swap
  rw [hswap]
  cases compare (key a) (key b) <;> rfl

variable {key} {xs ys : List β} (hkeys : (xs.map key).Nodup)

include hkeys

theorem pairwise_lt_mergeSort :
    (xs.mergeSort fun a b => (compare (key a) (key b)).isLE).Pairwise
      fun a b => key a < key b := by
  have hsorted := List.pairwise_mergeSort (isLE_compare_trans key) (isLE_compare_total key) xs
  have hdifferent : ((xs.mergeSort fun a b => (compare (key a) (key b)).isLE).map key).Nodup :=
    ((List.mergeSort_perm _ _).map key).nodup_iff.mpr hkeys
  refine (hsorted.and (List.pairwise_map.mp hdifferent)).imp ?_
  rintro a b ⟨hle, hne⟩
  cases hcompare : compare (key a) (key b) with
  | lt => exact compare_lt_iff_lt.mp hcompare
  | eq => exact absurd (Std.LawfulEqCmp.eq_of_compare hcompare) hne
  | gt =>
      rw [hcompare] at hle
      contradiction

/-- Sorting by key gives one list for all orders of the same elements, since no two have one key. -/
theorem mergeSort_eq_of_perm (hperm : ys.Perm xs) :
    (ys.mergeSort fun a b => (compare (key a) (key b)).isLE) =
      xs.mergeSort fun a b => (compare (key a) (key b)).isLE := by
  have hsame := (List.mergeSort_perm ys fun a b => (compare (key a) (key b)).isLE).trans
    (hperm.trans (List.mergeSort_perm xs fun a b => (compare (key a) (key b)).isLE).symm)
  refine hsame.eq_of_pairwise (fun a b _ _ hab hba => absurd hba (lt_asymm hab)) ?_
    (pairwise_lt_mergeSort hkeys)
  exact pairwise_lt_mergeSort ((hperm.map key).nodup_iff.mpr hkeys)

end

end ClassChart
