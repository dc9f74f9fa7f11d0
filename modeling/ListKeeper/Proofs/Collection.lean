import ListKeeper.Board
import ListKeeper.Proofs.Draft
import Mathlib.Data.List.Nodup

/-!
This module contains that the lists of a draft are a map from ids to lists which remembers the order
of its entries. All operations are of one kind: the entry with an id, if there is one, is exchanged
for another one or for none, and its neighbours stay.
-/

namespace ListKeeper

section Stands

structure Stands (id : String) (before : List Checklist) (entry : Option Checklist)
    (after lists : List Checklist) : Prop where
  lists_eq : lists = before ++ entry.toList ++ after
  own : ∀ list ∈ entry, list.id = id
  others : ∀ list ∈ before ++ after, list.id ≠ id

variable {id : String} {before after lists : List Checklist} {entry : Option Checklist}

theorem stands_none (hlists : lists = before ++ after)
    (h : lists.find? (·.id == id) = none) : Stands id before none after lists where
  lists_eq := by rw [Option.toList_none, List.append_nil, hlists]
  own := by simp
  others := by
    rw [← hlists]
    intro list hlist
    simpa using List.find?_eq_none.1 h list hlist

theorem exists_stands (hids : (lists.map (·.id)).Nodup) (id : String) :
    ∃ before after, Stands id before (lists.find? (·.id == id)) after lists := by
  cases hfind : lists.find? (·.id == id) with
  | none => exact ⟨lists, [], stands_none (List.append_nil _).symm hfind⟩
  | some list =>
    have hid : list.id = id := key_eq_of_find? hfind
    obtain ⟨_, before, after, heq, _⟩ := List.find?_eq_some_iff_append.1 hfind
    refine ⟨before, after, by simp [heq], by simp [hid], ?_⟩
    have hperm : lists.Perm (list :: (before ++ after)) := by
      rw [heq]
      exact List.perm_middle
    have hnodup := (hperm.map (·.id)).nodup_iff.1 hids
    rw [List.map_cons, List.nodup_cons] at hnodup
    intro other hother hsame
    exact hnodup.1 (List.mem_map.2 ⟨other, hother, hsame.trans hid.symm⟩)

namespace Stands

theorem find?_eq (h : Stands id before entry after lists) :
    lists.find? (·.id == id) = entry := by
  have hbefore : before.find? (·.id == id) = none :=
    List.find?_eq_none.2 fun list hlist => by simpa using h.others list (by simp [hlist])
  have hafter : after.find? (·.id == id) = none :=
    List.find?_eq_none.2 fun list hlist => by simpa using h.others list (by simp [hlist])
  rw [h.lists_eq, List.find?_append, List.find?_append, hbefore, hafter]
  cases entry with
  | none => rfl
  | some list => simp [h.own list rfl]

theorem find?_of_ne (h : Stands id before entry after lists) {other : String}
    (hother : other ≠ id) :
    lists.find? (·.id == other) = (before ++ after).find? (·.id == other) := by
  have hentry : entry.toList.find? (·.id == other) = none := by
    rw [List.find?_eq_none]
    intro list hlist
    have hid := h.own list (by simpa using hlist)
    simpa [hid] using hother.symm
  rw [h.lists_eq, List.find?_append, List.find?_append, hentry, Option.or_none, List.find?_append]

theorem filter_eq (h : Stands id before entry after lists) :
    lists.filter (·.id != id) = before ++ after := by
  have hothers : (before ++ after).filter (·.id != id) = before ++ after :=
    List.filter_eq_self.2 fun list hlist => by simpa using h.others list hlist
  have hentry : entry.toList.filter (·.id != id) = [] :=
    List.filter_eq_nil_iff.2 fun list hlist => by simpa using h.own list (by simpa using hlist)
  rw [h.lists_eq, List.filter_append, List.filter_append, hentry, List.append_nil,
    ← List.filter_append, hothers]

theorem findIdx?_eq (h : Stands id before entry after lists) :
    lists.findIdx? (·.id == id) = entry.map fun _ => before.length := by
  have hbefore : before.findIdx? (·.id == id) = none :=
    List.findIdx?_eq_none_iff.2 fun list hlist => by simpa using h.others list (by simp [hlist])
  have hafter : after.findIdx? (·.id == id) = none :=
    List.findIdx?_eq_none_iff.2 fun list hlist => by simpa using h.others list (by simp [hlist])
  rw [h.lists_eq, List.findIdx?_append, List.findIdx?_append, hbefore, hafter]
  cases entry with
  | none => rfl
  | some list => simp [h.own list rfl]

theorem nodup_iff (h : Stands id before entry after lists) :
    (lists.map (·.id)).Nodup ↔ ((before ++ after).map (·.id)).Nodup := by
  cases entry with
  | none => rw [h.lists_eq, Option.toList_none, List.append_nil]
  | some list =>
    have hperm : lists.Perm (list :: (before ++ after)) := by
      rw [h.lists_eq, Option.toList_some, List.append_assoc]
      exact List.perm_middle
    rw [(hperm.map (·.id)).nodup_iff, List.map_cons, List.nodup_cons, h.own list rfl]
    refine and_iff_right ?_
    intro hmem
    obtain ⟨other, hother, hid⟩ := List.mem_map.1 hmem
    exact h.others other hother hid

theorem any_eq (h : Stands id before entry after lists) :
    lists.any (·.id == id) = entry.isSome := by
  rw [any_eq_isSome_find?, h.find?_eq]

theorem changeFirst_eq {list : Checklist} (h : Stands id before (some list) after lists)
    (f : Checklist → Checklist) :
    changeFirst (·.id == id) f lists = before ++ [f list] ++ after := by
  have hbefore : ∀ other ∈ before, (other.id == id) = false := by
    intro other hother
    simpa using h.others other (by simp [hother])
  have hlist : (list.id == id) = true := beq_iff_eq.2 (h.own list rfl)
  rw [h.lists_eq, Option.toList_some, ← List.append_cons, ← List.append_cons]
  exact changeFirst_append hbefore list hlist after

theorem eraseP_eq (h : Stands id before entry after lists) :
    lists.eraseP (·.id == id) = before ++ after := by
  have hothers : ∀ list ∈ before ++ after, ¬(list.id == id) = true := by
    intro list hlist
    simpa using h.others list hlist
  cases entry with
  | none =>
    rw [h.lists_eq, Option.toList_none, List.append_nil]
    exact List.eraseP_of_forall_not hothers
  | some list =>
    have hlist : (list.id == id) = true := beq_iff_eq.2 (h.own list rfl)
    rw [h.lists_eq, Option.toList_some, ← List.append_cons,
      List.eraseP_append_right _ fun other hother => hothers other (by simp [hother])]
    exact congrArg _ (List.eraseP_cons_of_pos hlist)

end Stands
end Stands

inductive Edit where
  | upsert (list : Checklist)
  | insertAt (i : Nat) (list : Checklist)
  | remove (id : String)
  | modify (id : String) (f : Checklist → Checklist)
    (keepsId : ∀ list, list.id = id → (f list).id = id)

namespace Edit

def target : Edit → String
  | .upsert list | .insertAt _ list => list.id
  | .remove id | .modify id _ _ => id

def apply : Edit → Draft → Draft
  | .upsert list, d => d.upsert list
  | .insertAt i list, d => d.insertAt i list
  | .remove id, d => (d.remove id).2
  | .modify id f _, d => (d.modify id f).2

def written : Edit → Option Checklist → Option Checklist
  | .upsert list, _ | .insertAt _ list, _ => some list
  | .remove _, _ => none
  | .modify _ f _, former => former.map f

theorem id_of_written {e : Edit} {former : Option Checklist}
    (hformer : ∀ list ∈ former, list.id = e.target) :
    ∀ list ∈ e.written former, list.id = e.target := by
  intro list hlist
  cases e with
  | upsert _ =>
    cases hlist
    rfl
  | insertAt _ _ =>
    cases hlist
    rfl
  | remove _ => cases hlist
  | modify id f keepsId =>
    obtain ⟨old, hold, rfl⟩ := Option.map_eq_some_iff.1 hlist
    exact keepsId old (hformer old hold)

end Edit

namespace Draft

variable {d : Draft} {id : String}

def Distinct (d : Draft) : Prop :=
  (d.lists.map (·.id)).Nodup

def find? (d : Draft) (id : String) : Option Checklist :=
  d.lists.find? (·.id == id)

def editAll (d : Draft) : List Edit → Draft
  | [] => d
  | e :: rest => (e.apply d).editAll rest

theorem editAll_append (d : Draft) (edits edits' : List Edit) :
    d.editAll (edits ++ edits') = (d.editAll edits).editAll edits' := by
  induction edits generalizing d with
  | nil => rfl
  | cons e rest ih => exact ih (e.apply d)

theorem insertIdx_length_append (before after : List α) (a : α) :
    (before ++ after).insertIdx before.length a = before ++ a :: after := by
  induction before with
  | nil => rfl
  | cons b before ih => simp [ih]

theorem lists_insertAt_of_absent (i : Nat) {list : Checklist} (h : d.find? list.id = none) :
    (d.insertAt i list).lists = d.lists.take i ++ list :: d.lists.drop i := by
  have hposition : d.positionOf? list.id = none := by
    rw [positionOf?, List.findIdx?_eq_none_iff]
    intro other hother
    simpa using List.find?_eq_none.1 h other hother
  have hsplit := insertIdx_length_append (d.lists.take i) (d.lists.drop i) list
  rw [List.take_append_drop, List.length_take] at hsplit
  unfold insertAt
  rw [hposition]
  exact hsplit

theorem lists_upsert_of_absent {list : Checklist} (h : d.find? list.id = none) :
    (d.upsert list).lists = d.lists ++ [list] := by
  rw [lists_upsert, putFirst_of_not_any (any_of_find?_eq_none h)]

theorem lists_apply_of_stands {e : Edit} {before after : List Checklist} {old : Checklist}
    (h : Stands e.target before (some old) after d.lists) :
    (e.apply d).lists = before ++ (e.written (some old)).toList ++ after := by
  cases e with
  | upsert list =>
    calc (d.upsert list).lists
        = putFirst (·.id == list.id) list d.lists := lists_upsert d list
      _ = changeFirst (·.id == list.id) (fun _ => list) d.lists := if_pos h.any_eq
      _ = before ++ [list] ++ after := h.changeFirst_eq _
  | insertAt i list =>
    calc (d.insertAt i list).lists
        = changeFirst (·.id == list.id) (fun _ => list) d.lists :=
          lists_insertAt_of_any d i h.any_eq
      _ = before ++ [list] ++ after := h.changeFirst_eq _
  | remove id =>
    calc (d.remove id).2.lists
        = d.lists.eraseP (·.id == id) := lists_remove d id
      _ = before ++ after := h.eraseP_eq
      _ = before ++ [] ++ after := by rw [List.append_nil]
  | modify id f keepsId =>
    calc (d.modify id f).2.lists
        = changeFirst (·.id == id) f d.lists := lists_modify d id f
      _ = before ++ [f old] ++ after := h.changeFirst_eq f

theorem exists_lists_apply_of_absent {e : Edit} (h : d.find? e.target = none) :
    ∃ before after, d.lists = before ++ after ∧
      (e.apply d).lists = before ++ (e.written none).toList ++ after := by
  cases e with
  | upsert list =>
    refine ⟨d.lists, [], (List.append_nil _).symm, ?_⟩
    rw [List.append_nil]
    exact lists_upsert_of_absent h
  | insertAt i list =>
    refine ⟨d.lists.take i, d.lists.drop i, (List.take_append_drop i d.lists).symm, ?_⟩
    rw [List.append_assoc]
    exact lists_insertAt_of_absent i h
  | remove id =>
    refine ⟨d.lists, [], (List.append_nil _).symm, ?_⟩
    calc (d.remove id).2.lists
        = d.lists.eraseP (·.id == id) := lists_remove d id
      _ = d.lists := List.eraseP_of_forall_not (List.find?_eq_none.1 h)
      _ = d.lists ++ [] ++ [] := by simp
  | modify id f keepsId =>
    refine ⟨d.lists, [], (List.append_nil _).symm, ?_⟩
    calc (d.modify id f).2.lists
        = changeFirst (·.id == id) f d.lists := lists_modify d id f
      _ = d.lists := changeFirst_of_any_eq_false (any_of_find?_eq_none h)
      _ = d.lists ++ [] ++ [] := by simp

theorem exists_stands_apply (hd : d.Distinct) (e : Edit) :
    ∃ before after, Stands e.target before (d.find? e.target) after d.lists ∧
      Stands e.target before (e.written (d.find? e.target)) after (e.apply d).lists := by
  cases hfind : d.find? e.target with
  | none =>
    obtain ⟨before, after, hlists, happly⟩ := exists_lists_apply_of_absent hfind
    have hstands := stands_none hlists hfind
    exact ⟨before, after, hstands, happly, Edit.id_of_written hstands.own, hstands.others⟩
  | some old =>
    obtain ⟨before, after, hstands⟩ := exists_stands hd e.target
    rw [show d.lists.find? (·.id == e.target) = some old from hfind] at hstands
    exact ⟨before, after, hstands, lists_apply_of_stands hstands,
      Edit.id_of_written hstands.own, hstands.others⟩

theorem distinct_apply (hd : d.Distinct) (e : Edit) : (e.apply d).Distinct := by
  obtain ⟨before, after, h, h'⟩ := exists_stands_apply hd e
  exact h'.nodup_iff.2 (h.nodup_iff.1 hd)

theorem find?_apply (hd : d.Distinct) (e : Edit) (id : String) :
    (e.apply d).find? id = if e.target = id then e.written (d.find? id) else d.find? id := by
  obtain ⟨before, after, h, h'⟩ := exists_stands_apply hd e
  split
  · next hid =>
    subst hid
    exact h'.find?_eq
  · next hid => exact (h'.find?_of_ne (Ne.symm hid)).trans (h.find?_of_ne (Ne.symm hid)).symm

theorem distinct_editAll (hd : d.Distinct) (edits : List Edit) : (d.editAll edits).Distinct := by
  induction edits generalizing d with
  | nil => exact hd
  | cons e rest ih => exact ih (distinct_apply hd e)

theorem find?_editAll_of_unwritten (hd : d.Distinct) {edits : List Edit}
    (h : ∀ e ∈ edits, e.target ≠ id) : (d.editAll edits).find? id = d.find? id := by
  induction edits generalizing d with
  | nil => rfl
  | cons e rest ih =>
    have hrest := ih (distinct_apply hd e) fun e' he' => h e' (List.mem_cons_of_mem e he')
    rw [find?_apply hd, if_neg (h e List.mem_cons_self)] at hrest
    exact hrest

theorem found_remove (d : Draft) (id : String) : (d.remove id).1 = d.find? id := by
  unfold remove find?
  split
  · next i hi =>
    obtain ⟨hlt, hid, hbefore⟩ := List.findIdx?_eq_some_iff_getElem.1 hi
    rw [List.getElem?_eq_getElem hlt, eq_comm, List.find?_eq_some_iff_getElem]
    refine ⟨hid, i, hlt, rfl, ?_⟩
    intro j hj
    simpa using hbefore j hj
  · next hnone =>
    rw [eq_comm, List.find?_eq_none]
    intro list hlist
    simpa using List.findIdx?_eq_none_iff.1 hnone list hlist

theorem positionOf?_of_stands {before after : List Checklist} {entry : Option Checklist}
    (h : Stands id before entry after d.lists) {i : Nat} (hi : d.positionOf? id = some i) :
    i = before.length ∧ ∃ list, entry = some list := by
  rw [positionOf?, h.findIdx?_eq] at hi
  obtain ⟨list, hlist, rfl⟩ := Option.map_eq_some_iff.1 hi
  exact ⟨rfl, list, hlist⟩

theorem lists_apply_of_position (hd : d.Distinct) {e : Edit} {i : Nat} {list : Checklist}
    (hi : d.positionOf? e.target = some i) (hlist : e.written (d.find? e.target) = some list) :
    (e.apply d).lists = d.lists.set i list := by
  obtain ⟨before, after, h, h'⟩ := exists_stands_apply hd e
  obtain ⟨rfl, old, hold⟩ := positionOf?_of_stands h hi
  rw [hold] at h
  rw [hlist] at h'
  rw [h.lists_eq, h'.lists_eq, Option.toList_some, Option.toList_some, ← List.append_cons,
    ← List.append_cons, List.set_append_right _ _ (Nat.le_refl _), Nat.sub_self,
    List.set_cons_zero]

theorem apply_with_lists (d : Draft) (e : Edit) : { e.apply d with lists := d.lists } = d := by
  cases e with
  | upsert list =>
    show ({ d.upsert list with lists := d.lists } : Draft) = d
    unfold upsert
    split
    · rfl
    · rfl
  | insertAt i list =>
    show ({ d.insertAt i list with lists := d.lists } : Draft) = d
    unfold insertAt
    split
    · rfl
    · rfl
  | remove id =>
    show ({ (d.remove id).2 with lists := d.lists } : Draft) = d
    unfold remove
    split
    · rfl
    · rfl
  | modify id f keepsId =>
    show ({ (d.modify id f).2 with lists := d.lists } : Draft) = d
    unfold modify
    split
    · rfl
    · rfl

theorem insertAt_remove (hd : d.Distinct) {i : Nat} (hi : d.positionOf? id = some i) :
    ∃ list, (d.remove id).1 = some list ∧ (d.remove id).2.insertAt i list = d := by
  obtain ⟨before, after, h⟩ := exists_stands hd id
  obtain ⟨rfl, list, hlist⟩ := positionOf?_of_stands h hi
  refine ⟨list, (found_remove d id).trans hlist, ?_⟩
  have hid : list.id = id := h.own list hlist
  have hremoved : (d.remove id).2.lists = before ++ after := (lists_remove d id).trans h.eraseP_eq
  have habsent : (d.remove id).2.find? list.id = none := by
    rw [hid]
    exact (find?_apply hd (.remove id) id).trans (if_pos rfl)
  have hlists : ((d.remove id).2.insertAt before.length list).lists = d.lists := by
    rw [lists_insertAt_of_absent _ habsent, hremoved, List.take_left, List.drop_left,
      h.lists_eq, hlist, Option.toList_some, List.append_cons]
  calc (d.remove id).2.insertAt before.length list
      = { (d.remove id).2.insertAt before.length list with lists := d.lists } := by rw [← hlists]
    _ = { (d.remove id).2 with lists := d.lists } :=
      congrArg (fun d' : Draft => { d' with lists := d.lists })
        (apply_with_lists (d.remove id).2 (.insertAt before.length list))
    _ = d := apply_with_lists d (.remove id)

/--
The laws of a map from ids to lists that remembers the order of its entries.
-/
structure MapLaws (d : Draft) : Prop where
  others : ∀ e : Edit,
    (e.apply d).lists.filter (·.id != e.target) = d.lists.filter (·.id != e.target)
  replaced : ∀ (e : Edit) i list, d.positionOf? e.target = some i →
    e.written (d.find? e.target) = some list → (e.apply d).lists = d.lists.set i list
  added : ∀ list, d.find? list.id = none → (d.upsert list).lists = d.lists ++ [list] ∧
    ∀ i, (d.insertAt i list).lists = d.lists.take i ++ list :: d.lists.drop i
  told : ∀ id f, (d.remove id).1 = d.find? id ∧ (d.modify id f).1 = (d.find? id).isSome
  restored : ∀ id i, d.positionOf? id = some i →
    ∃ list, (d.remove id).1 = some list ∧ (d.remove id).2.insertAt i list = d
  frame : ∀ e : Edit, { e.apply d with lists := d.lists } = d
  shown : ∀ (s : Snapshot) now id, (s.next now d).findList? id = d.find? id ∧
    (s.next now d).positionOf? id = d.positionOf? id

theorem mapLaws (hd : d.Distinct) : d.MapLaws where
  others := by
    intro e
    obtain ⟨before, after, h, h'⟩ := exists_stands_apply hd e
    rw [h.filter_eq, h'.filter_eq]
  replaced := fun _ _ _ hi hlist => lists_apply_of_position hd hi hlist
  added := fun _ h => ⟨lists_upsert_of_absent h, fun i => lists_insertAt_of_absent i h⟩
  told := fun id f => ⟨found_remove d id, (found_modify d id f).trans any_eq_isSome_find?⟩
  restored := fun _ _ hi => insertAt_remove hd hi
  frame := apply_with_lists d
  shown := fun _ _ _ => ⟨rfl, rfl⟩

structure MapAfter (d : Draft) (edits : List Edit) : Prop where
  distinct : (d.editAll edits).Distinct
  last : ∀ earlier e later, edits = earlier ++ e :: later → (∀ e' ∈ later, e'.target ≠ e.target) →
    (d.editAll edits).find? e.target = e.written ((d.editAll earlier).find? e.target)
  untouched : ∀ id, (∀ e ∈ edits, e.target ≠ id) → (d.editAll edits).find? id = d.find? id
  laws : (d.editAll edits).MapLaws

/--
Lists with different ids are a map that remembers the order of its entries, and stay so in every run
of changes.
-/
theorem editAll_mapAfter (d : Draft) (hd : d.Distinct) (edits : List Edit) :
    d.MapAfter edits where
  distinct := distinct_editAll hd edits
  last := by
    rintro earlier e later rfl hlater
    have hearlier := distinct_editAll hd earlier
    rw [editAll_append, editAll, find?_editAll_of_unwritten (distinct_apply hearlier e) hlater,
      find?_apply hearlier, if_pos rfl]
  untouched := fun _ h => find?_editAll_of_unwritten hd h
  laws := mapLaws (distinct_editAll hd edits)

/--
A list is written over, and another one is removed and put back with another name, beyond the end.
-/
theorem editAll_mapAfter_putBack :
    let list (id name : String) := Checklist.create id name .epoch
    let d : Draft := ⟨[list "a" "Tea", list "b" "Trip", list "c" "Books"], .initial, false, none⟩
    let edits := [.upsert (list "b" "Journey"), .remove "a", .insertAt 9 (list "a" "Coffee")]
    d.Distinct ∧ d.MapAfter edits ∧
      (d.editAll edits).lists = [list "b" "Journey", list "c" "Books", list "a" "Coffee"] := by
  intro list d edits
  have hd : d.Distinct := by
    unfold Distinct
    decide
  exact ⟨hd, editAll_mapAfter d hd edits, by decide⟩

end Draft
end ListKeeper
