import Mathlib.Data.List.Basic

/-!
This module contains the stability of sorting: elements that the comparison does not tell apart stay
in the order they were in, and this determines the sorted list.
-/

namespace ListKeeper

variable {le : α → α → Bool} {as : List α}

theorem filter_mergeSort (trans : ∀ a b c, le a b → le b c → le a c)
    (total : ∀ a b, le a b || le b a) {p : α → Bool}
    (hp : ∀ a b, p a = true → p b = true → le a b = true) :
    (as.mergeSort le).filter p = as.filter p := by
  have hclass : (as.filter p).Pairwise fun a b => le a b = true := by
    apply List.pairwise_of_forall_mem_list
    intro a ha b hb
    exact hp a b (List.mem_filter.1 ha).2 (List.mem_filter.1 hb).2
  have hsublist := (List.sublist_mergeSort trans total hclass List.filter_sublist).filter p
  rw [List.filter_filter] at hsublist
  simp only [Bool.and_self] at hsublist
  symm
  apply hsublist.eq_of_length
  exact ((List.mergeSort_perm as le).filter p).length_eq.symm

theorem pairwise_mergeSort_stable (trans : ∀ a b c, le a b → le b c → le a c)
    (total : ∀ a b, le a b || le b a) {r : α → α → Prop} (has : as.Pairwise r) :
    (as.mergeSort le).Pairwise fun a b => le a b = true ∧ (le b a = true → r a b) := by
  rw [List.pairwise_iff_forall_sublist]
  intro a b hsublist
  have hle : le a b = true :=
    List.pairwise_iff_forall_sublist.1 (List.pairwise_mergeSort trans total as) hsublist
  refine ⟨hle, ?_⟩
  intro hge
  have hrefl : le a a = true := by simpa using total a a
  -- Both are in the class of `a`, which sorting does not change.
  have hclass := hsublist.filter fun x => le a x && le x a
  rw [filter_mergeSort trans total] at hclass
  · have hboth : [a, b].filter (fun x => le a x && le x a) = [a, b] := by
      simp [hrefl, hle, hge]
    rw [hboth] at hclass
    exact List.pairwise_iff_forall_sublist.1 (has.filter _) hclass
  · intro x y hx hy
    rw [Bool.and_eq_true] at hx hy
    exact trans x a y hx.2 hy.1

theorem eq_mergeSort_of_perm (trans : ∀ a b c, le a b → le b c → le a c)
    (total : ∀ a b, le a b || le b a) {r : α → α → Prop} (hr : ∀ a b, r a b → ¬ r b a)
    {bs : List α} (hperm : bs.Perm as) (has : as.Pairwise r)
    (hbs : bs.Pairwise fun a b => le a b = true ∧ (le b a = true → r a b)) :
    bs = as.mergeSort le := by
  apply List.Perm.eq_of_pairwise _ hbs (pairwise_mergeSort_stable trans total has)
  · exact hperm.trans (List.mergeSort_perm as le).symm
  · rintro a b _ _ ⟨hab, hr'⟩ ⟨hba, hr''⟩
    exact absurd (hr'' hab) (hr a b (hr' hba))

section Classes

variable {bs : List α} (total : ∀ a b, le a b || le b a)
  (hclasses : ∀ c, as.filter (fun x => le c x && le x c) = bs.filter fun x => le c x && le x c)

include total hclasses in
theorem mem_iff_of_classes (a : α) : a ∈ as ↔ a ∈ bs := by
  have hrefl : le a a = true := by simpa using total a a
  have ha := congrArg (a ∈ ·) (hclasses a)
  simpa [List.mem_filter, hrefl] using ha

include total hclasses in
theorem eq_of_classes (has : as.Pairwise (le · ·)) (hbs : bs.Pairwise (le · ·)) : as = bs := by
  have hrefl : ∀ a, le a a = true := fun a => by simpa using total a a
  induction as generalizing bs with
  | nil =>
    cases bs with
    | nil => rfl
    | cons b bs =>
      have hb := (mem_iff_of_classes total hclasses b).2 (List.mem_cons_self ..)
      exact absurd hb List.not_mem_nil
  | cons a as ih =>
    cases bs with
    | nil =>
      have ha := (mem_iff_of_classes total hclasses a).1 (List.mem_cons_self ..)
      exact absurd ha List.not_mem_nil
    | cons b bs =>
      rw [List.pairwise_cons] at has hbs
      -- Each head is in the other list, so the heads are tied and lead the same class.
      have hab : le a b = true := by
        rcases List.mem_cons.1 ((mem_iff_of_classes total hclasses b).2 (List.mem_cons_self ..))
          with heq | hb
        · exact heq ▸ hrefl b
        · exact has.1 b hb
      have hba : le b a = true := by
        rcases List.mem_cons.1 ((mem_iff_of_classes total hclasses a).1 (List.mem_cons_self ..))
          with heq | ha
        · exact heq ▸ hrefl a
        · exact hbs.1 a ha
      have hhead := hclasses a
      rw [List.filter_cons_of_pos (by simp [hrefl]), List.filter_cons_of_pos (by simp [hab, hba])]
        at hhead
      obtain rfl := (List.cons.inj hhead).1
      congr 1
      apply ih _ has.2 hbs.2
      intro c
      have hc := hclasses c
      rw [List.filter_cons, List.filter_cons] at hc
      split at hc
      · exact (List.cons.inj hc).2
      · exact hc

end Classes

theorem mergeSort_filter (trans : ∀ a b c, le a b → le b c → le a c)
    (total : ∀ a b, le a b || le b a) (p : α → Bool) :
    (as.filter p).mergeSort le = (as.mergeSort le).filter p := by
  -- Sorting keeps each class in its order, and the filter picks from it the same elements.
  have hkeeps (bs : List α) (c : α) :
      (bs.mergeSort le).filter (fun x => le c x && le x c) =
        bs.filter fun x => le c x && le x c := by
    apply filter_mergeSort trans total
    intro x y hx hy
    rw [Bool.and_eq_true] at hx hy
    exact trans x c y hx.2 hy.1
  apply eq_of_classes total
  · intro c
    rw [hkeeps, List.filter_comm, ← hkeeps as, List.filter_comm]
  · exact List.pairwise_mergeSort trans total _
  · exact (List.pairwise_mergeSort trans total _).filter p

end ListKeeper
