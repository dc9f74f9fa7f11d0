import ListKeeper.Draft

/-!
This module contains the changes of a collection of lists without positions: entries are found by
what they are like, and the first one that is found is changed, replaced or removed. The operations
on drafts, which look for a position first, are shown to be these changes.
-/

namespace ListKeeper

def changeFirst (p : α → Bool) (f : α → α) : List α → List α
  | [] => []
  | a :: rest => if p a then f a :: rest else a :: changeFirst p f rest

def putFirst (p : α → Bool) (a : α) (as : List α) : List α :=
  if as.any p then changeFirst p (fun _ => a) as else as ++ [a]

section ChangeFirst

variable {p : α → Bool} {f : α → α} {as : List α}

theorem changeFirst_append {before : List α} (hbefore : ∀ a ∈ before, p a = false) (a : α)
    (ha : p a = true) (after : List α) :
    changeFirst p f (before ++ a :: after) = before ++ f a :: after := by
  induction before with
  | nil => simp [changeFirst, ha]
  | cons b before ih =>
    have hb : p b = false := hbefore b (by simp)
    have hrest := ih fun a h => hbefore a (by simp [h])
    simp [changeFirst, hb, hrest]

theorem changeFirst_of_any_eq_false (h : as.any p = false) : changeFirst p f as = as := by
  induction as with
  | nil => rfl
  | cons a as ih =>
    simp only [List.any_cons, Bool.or_eq_false_iff] at h
    simp [changeFirst, h.1, ih h.2]

theorem changeFirst_of_fixed (h : ∀ a, as.find? p = some a → f a = a) :
    changeFirst p f as = as := by
  induction as with
  | nil => rfl
  | cons a as ih =>
    simp only [changeFirst]
    split
    · next ha => rw [h a (by simp [ha])]
    · next ha => rw [ih fun b hb => h b (by simp [ha, hb])]

theorem find?_changeFirst (hf : ∀ a, p a = true → p (f a) = true) :
    (changeFirst p f as).find? p = (as.find? p).map f := by
  induction as with
  | nil => rfl
  | cons a rest ih =>
    unfold changeFirst
    cases ha : p a with
    | true => simp [ha, hf a ha]
    | false => simp [ha, ih]

theorem map_changeFirst {g : α → β} (hf : ∀ a, p a = true → g (f a) = g a) :
    (changeFirst p f as).map g = as.map g := by
  induction as with
  | nil => rfl
  | cons a rest ih =>
    unfold changeFirst
    cases ha : p a with
    | true => simp [hf a ha]
    | false => simp [ih]

theorem modify_eq_changeFirst {i : Nat} (h : as.findIdx? p = some i) :
    as.modify i f = changeFirst p f as := by
  obtain ⟨hi, hp, hbefore⟩ := List.findIdx?_eq_some_iff_getElem.1 h
  have htake : ∀ a ∈ as.take i, p a = false := by
    intro a ha
    obtain ⟨j, hj, rfl⟩ := List.mem_iff_getElem.1 ha
    rw [List.length_take] at hj
    rw [List.getElem_take]
    simpa using hbefore j (by omega)
  rw [List.modify_eq_take_cons_drop hi]
  conv => rhs; rw [← List.take_append_drop i as, List.drop_eq_getElem_cons hi]
  rw [changeFirst_append htake _ hp]

theorem set_eq_changeFirst {i : Nat} {a : α} (h : as.findIdx? p = some i) :
    as.set i a = changeFirst p (fun _ => a) as := by
  rw [← modify_eq_changeFirst h]
  apply List.ext_getElem?
  intro j
  rw [List.getElem?_set, List.getElem?_modify]
  split
  · next hij =>
    subst hij
    split
    · next hi => simp [hi]
    · next hi => simp [Nat.not_lt.1 hi]
  · simp

theorem any_eq_isSome_findIdx? : as.any p = (as.findIdx? p).isSome :=
  List.findIdx?_isSome.symm

theorem any_eq_isSome_find? : as.any p = (as.find? p).isSome := by
  rw [Bool.eq_iff_iff, List.find?_isSome, List.any_eq_true]

theorem any_of_find? {a : α} (h : as.find? p = some a) : as.any p = true := by
  rw [any_eq_isSome_find?, h]
  rfl

theorem any_of_find?_eq_none (h : as.find? p = none) : as.any p = false := by
  rw [any_eq_isSome_find?, h]
  rfl

theorem findIdx?_of_find? {a : α} (h : as.find? p = some a) : ∃ i, as.findIdx? p = some i := by
  rw [← Option.isSome_iff_exists, ← any_eq_isSome_findIdx?]
  exact any_of_find? h

theorem key_eq_of_find? {key : α → String} {k : String} {a : α}
    (h : as.find? (fun b => key b == k) = some a) : key a = k := by
  simpa using List.find?_some h

theorem putFirst_of_not_any {a : α} (h : as.any p = false) : putFirst p a as = as ++ [a] := by
  simp [putFirst, h]

theorem exists_perm_of_find? {a : α} (h : as.find? p = some a) :
    ∃ rest, as.Perm (a :: rest) ∧ (as.eraseP p).Perm rest ∧
      ∀ f, (changeFirst p f as).Perm (f a :: rest) := by
  obtain ⟨ha, before, after, heq, hbefore⟩ := List.find?_eq_some_iff_append.1 h
  have hbefore' : ∀ b ∈ before, p b = false := by
    intro b hb
    simpa using hbefore b hb
  refine ⟨before ++ after, ?_, ?_, ?_⟩
  · rw [heq]
    exact List.perm_middle
  · rw [heq, List.eraseP_append_right _ fun b hb => by simp [hbefore' b hb],
      List.eraseP_cons_of_pos ha]
  · intro f
    rw [heq, changeFirst_append hbefore' a ha]
    exact List.perm_middle

theorem putFirst_perm (p : α → Bool) (a : α) (as : List α) :
    (putFirst p a as).Perm (a :: as.eraseP p) := by
  cases hfind : as.find? p with
  | none =>
    rw [putFirst_of_not_any (any_of_find?_eq_none hfind),
      List.eraseP_of_forall_not (List.find?_eq_none.1 hfind)]
    exact List.perm_append_singleton a as
  | some former =>
    obtain ⟨rest, _, herase, hchange⟩ := exists_perm_of_find? hfind
    simp only [putFirst, any_of_find? hfind, ↓reduceIte]
    exact (hchange _).trans (herase.symm.cons a)

end ChangeFirst

namespace Draft

variable (d : Draft)

theorem lists_modify (id : String) (f : Checklist → Checklist) :
    (d.modify id f).2.lists = changeFirst (·.id == id) f d.lists := by
  unfold modify
  split
  · next i hi => exact modify_eq_changeFirst hi
  · next hi =>
    rw [changeFirst_of_any_eq_false]
    rw [any_eq_isSome_findIdx?]
    exact Option.isSome_eq_false_iff.2 (Option.isNone_iff_eq_none.2 hi)

theorem found_modify (id : String) (f : Checklist → Checklist) :
    (d.modify id f).1 = d.lists.any (·.id == id) := by
  rw [any_eq_isSome_findIdx?]
  unfold modify
  split
  · next i hi =>
    unfold positionOf? at hi
    rw [hi]
    rfl
  · next hi =>
    unfold positionOf? at hi
    rw [hi]
    rfl

theorem modify_of_absent {id : String} (h : d.lists.any (·.id == id) = false)
    (f : Checklist → Checklist) : (d.modify id f).2 = d := by
  rw [any_eq_isSome_findIdx?, Option.isSome_eq_false_iff, Option.isNone_iff_eq_none] at h
  unfold modify positionOf?
  rw [h]

theorem lists_upsert (list : Checklist) :
    (d.upsert list).lists = putFirst (·.id == list.id) list d.lists := by
  unfold upsert putFirst
  rw [any_eq_isSome_findIdx?]
  split
  · next i hi =>
    unfold positionOf? at hi
    rw [hi]
    exact set_eq_changeFirst hi
  · next hi =>
    unfold positionOf? at hi
    rw [hi]
    rfl

theorem lists_remove (id : String) : (d.remove id).2.lists = d.lists.eraseP (·.id == id) := by
  unfold remove
  split
  · next i hi => rw [List.eraseP_eq_eraseIdx, show d.lists.findIdx? (·.id == id) = some i from hi]
  · next hi => rw [List.eraseP_eq_eraseIdx, show d.lists.findIdx? (·.id == id) = none from hi]

theorem lists_insertAt_of_any (i : Nat) {list : Checklist}
    (h : d.lists.any (·.id == list.id) = true) :
    (d.insertAt i list).lists = changeFirst (·.id == list.id) (fun _ => list) d.lists := by
  rw [any_eq_isSome_findIdx?] at h
  unfold insertAt
  split
  · next j hj => exact set_eq_changeFirst hj
  · next hj =>
    unfold positionOf? at hj
    rw [hj] at h
    contradiction

end Draft
end ListKeeper
