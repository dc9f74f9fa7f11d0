import ListKeeper.Proofs.Keeper.Rollback
import ListKeeper.Proofs.Storage.Coherence

/-!
This module contains runs of calls over faulty storage. After each call the lists that are shown and
the content of storage fit together, however many calls of storage have failed, as long as
compensations succeed.
-/

namespace ListKeeper

namespace Call

/--
What is asked of a call when the given lists are shown and stored: ids of new lists and items are
not taken and differ from each other, and lists and items that are updated are there. A list that an
item is added to or changed in may be missing, and so may all that is removed.
-/
def Admissible (lists : List Checklist) (image : Image) : Call → Prop
  | .createList list =>
    image.lists.get? list.id = none ∧ (list.items.map (·.id)).Nodup ∧
      ∀ item ∈ list.items, image.items.get? item.id = none
  | .updateList list => ∃ former ∈ lists, former.id = list.id
  | .addItem _ item => image.items.get? item.id = none
  | .updateItem listId item =>
    ∀ parent ∈ lists, parent.id = listId → ∃ former ∈ parent.items, former.id = item.id
  | .addItems _ items =>
    (items.map (·.id)).Nodup ∧ ∀ item ∈ items, image.items.get? item.id = none
  | .reset => False
  | _ => True

/--
What has to hold of a call that succeeds when the given lists are shown and stored, so that what is
shown and what is stored still fit together after it. A list that is created takes the place of one
with the same id, so it has to take over the ids of all stored items of that list, and of no other
items. Items are added under ids that are not taken and differ from each other. An item that is
updated may be new to its list, but its id must not belong to an item of another list.
-/
def Compatible (lists : List Checklist) (image : Image) : Call → Prop
  | .createList list =>
    (list.items.map (·.id)).Nodup ∧ ∀ id stored, image.items.get? id = some stored →
      (stored.listId = list.id ↔ id ∈ list.items.map (·.id))
  | .addItem listId item =>
    (∃ parent ∈ lists, parent.id = listId) → image.items.get? item.id = none
  | .updateItem listId item =>
    (∃ parent ∈ lists, parent.id = listId) →
      ∀ stored, image.items.get? item.id = some stored → stored.listId = listId
  | .addItems listId items =>
    (∃ parent ∈ lists, parent.id = listId) →
      (items.map (·.id)).Nodup ∧ ∀ item ∈ items, image.items.get? item.id = none
  | _ => True

variable {call : Call} {lists : List Checklist} {image : Image}

theorem find?_of_exists {id : String} (h : ∃ list ∈ lists, list.id = id) :
    ∃ list, lists.find? (·.id == id) = some list := by
  obtain ⟨list, hlist, hid⟩ := h
  rw [← Option.isSome_iff_exists, List.find?_isSome]
  exact ⟨list, hlist, by simp [hid]⟩

theorem Admissible.find_list {list : Checklist}
    (h : (Call.updateList list).Admissible lists image) :
    ∃ former, lists.find? (·.id == list.id) = some former :=
  find?_of_exists h

theorem Admissible.find_item {listId : String} {item : Item} {parent : Checklist}
    (h : (Call.updateItem listId item).Admissible lists image)
    (hparent : lists.find? (·.id == listId) = some parent) :
    ∃ former, parent.findItem? item.id = some former := by
  have hid : parent.id = listId := key_eq_of_find? hparent
  obtain ⟨former, hformer, hid'⟩ := h parent (List.mem_of_find?_eq_some hparent) hid
  unfold Checklist.findItem?
  rw [← Option.isSome_iff_exists, List.find?_isSome]
  exact ⟨former, hformer, by simp [hid']⟩

section Undo

theorem undoable_of_single (change : Write) (hwrites : call.writes lists = [change])
    (hnone : image.writeAll (call.undoing 0 lists) = image)
    (hdone : (image.write change).writeAll (call.undoing 1 lists) = image) :
    call.Undoable lists image := by
  intro made hmade
  rw [hwrites] at hmade
  cases made with
  | nil => exact hnone
  | cons first others =>
    obtain ⟨rfl, hothers⟩ := List.cons_prefix_cons.1 hmade
    rw [List.prefix_nil.1 hothers]
    exact hdone

theorem undoable_of_none (hwrites : call.writes lists = [])
    (hnone : image.writeAll (call.undoing 0 lists) = image) : call.Undoable lists image := by
  intro made hmade
  rw [hwrites] at hmade
  rw [List.prefix_nil.1 hmade]
  exact hnone

theorem undoable_createList {list : Checklist} (h : Coherent lists image)
    (hadmissible : (Call.createList list).Admissible lists image) :
    (Call.createList list).Undoable lists image := by
  obtain ⟨hfresh, _, hfreshItems⟩ := hadmissible
  intro made hmade
  show (image.writeAll made).write (.deleteList list.id) = image
  -- Removing the list removes its items as well, whichever of them were stored.
  rw [Image.write_deleteList_writeAll]
  · exact h.deleteList_of_absent hfresh
  · intro change hchange
    rcases List.mem_cons.1 (hmade.subset hchange) with rfl | hmem
    · rfl
    · obtain ⟨moved, hmoved, rfl⟩ := List.mem_map.1 hmem
      obtain ⟨item, hitem, rfl⟩ := List.mem_map.1 hmoved
      exact Image.storesInto_moveTo list.id (hfreshItems item hitem)

theorem undoable_updateList {list : Checklist} (h : Coherent lists image)
    (hadmissible : (Call.updateList list).Admissible lists image) :
    (Call.updateList list).Undoable lists image := by
  obtain ⟨former, hfind⟩ := hadmissible.find_list
  have hholds : image.Holds (.saveList former) := h.list_stored (List.mem_of_find?_eq_some hfind)
  have hid : former.id = list.id := key_eq_of_find? hfind
  have hundoing : ∀ made, (Call.updateList list).undoing made lists = [.saveList former] := by
    intro made
    simp only [undoing, hfind, Option.getD_some]
  apply undoable_of_single (.saveList list) rfl
  · rw [hundoing]
    apply Image.writeAll_of_holds
    simpa using hholds
  · rw [hundoing]
    exact Image.write_saveList_saveList hid.symm hholds

theorem undoable_deleteList {id : String} (h : Coherent lists image) :
    (Call.deleteList id).Undoable lists image := by
  cases hfind : lists.find? (·.id == id) with
  | none =>
    apply undoable_of_none
    · simp only [writes, hfind, Option.elim_none]
    · simp only [undoing, hfind, Option.elim_none, Image.writeAll_nil]
  | some former =>
    have hformer : former ∈ lists := List.mem_of_find?_eq_some hfind
    have hid : former.id = id := key_eq_of_find? hfind
    have hundoing : ∀ made, (Call.deleteList id).undoing made lists = former.saves := by
      intro made
      simp only [undoing, hfind, Option.elim_some]
    apply undoable_of_single (.deleteList id)
    · simp only [writes, hfind, Option.elim_some]
    · rw [hundoing]
      apply Image.writeAll_of_holds
      intro change hchange
      exact h.holds_saves hformer hchange
    · rw [hundoing]
      apply (Image.part_deleteList id).writeAll_eq
      · intro change hchange
        exact h.holds_saves hformer hchange
      -- What is missing after the removal is stored again: the list, and then its items.
      · intro k stored hstored
        by_cases hk : k = id
        · have hlist := h.list_stored hformer
          rw [hid, ← hk, hstored] at hlist
          exact .inr ⟨former, List.mem_cons_self, hid.trans hk.symm, (Option.some.inj hlist).symm⟩
        · left
          rw [Image.lists_deleteList, if_neg hk]
          exact hstored
      · intro k stored hstored
        by_cases hparent : stored.listId = id
        · have hmem := h.mem_of_listId hformer hstored (hparent.trans hid.symm)
          have hk : stored.id = k := h.own_itemId hstored
          exact .inr ⟨List.mem_cons_of_mem _ (List.mem_map_of_mem hmem), hk⟩
        · left
          rw [Image.items_deleteList, Option.filter_eq_some_iff]
          exact ⟨hstored, by simp [hparent]⟩

theorem undoable_clearAll (h : Coherent lists image) : Call.clearAll.Undoable lists image := by
  have hholds : ∀ change ∈ lists.flatMap Checklist.saves, image.Holds change := by
    intro change hchange
    obtain ⟨list, hlist, hmem⟩ := List.mem_flatMap.1 hchange
    exact h.holds_saves hlist hmem
  apply undoable_of_single .clear rfl
  · exact Image.writeAll_of_holds hholds
  · apply Image.part_clear.writeAll_eq hholds
    · intro k stored hstored
      obtain ⟨list, hlist, hid, hstored'⟩ := (h.storedLists _ _).1 hstored
      exact .inr ⟨list, List.mem_flatMap.2 ⟨list, hlist, List.mem_cons_self⟩, hid, hstored'⟩
    · intro k stored hstored
      obtain ⟨list, hlist, hmem, hid⟩ := (h.storedItems _ _).1 hstored
      refine .inr ⟨List.mem_flatMap.2 ⟨list, hlist, ?_⟩, hid⟩
      exact List.mem_cons_of_mem _ (List.mem_map_of_mem hmem)

theorem undoable_addItem {listId : String} {item : Item}
    (hadmissible : (Call.addItem listId item).Admissible lists image) :
    (Call.addItem listId item).Undoable lists image := by
  have hnone : image.write (.deleteItem item.id) = image :=
    Image.write_deleteItem_of_absent hadmissible
  cases hfind : lists.find? (·.id == listId) with
  | none =>
    apply undoable_of_none
    · simp only [writes, hfind, Option.elim_none]
    · exact hnone
  | some parent =>
    apply undoable_of_single (.saveItem (item.moveTo listId))
    · simp only [writes, hfind, Option.elim_some]
    · exact hnone
    · apply Image.writeAll_deleteItems_saveItems [item.moveTo listId]
      intro added hadded
      rw [List.mem_singleton.1 hadded]
      exact hadmissible

theorem undoable_updateItem {listId : String} {item : Item} (h : Coherent lists image)
    (hadmissible : (Call.updateItem listId item).Admissible lists image) :
    (Call.updateItem listId item).Undoable lists image := by
  cases hfind : lists.find? (·.id == listId) with
  | none =>
    apply undoable_of_none
    · simp only [writes, hfind, Option.elim_none]
    · simp only [undoing, hfind, Option.elim_none, Image.writeAll_nil]
  | some parent =>
    obtain ⟨former, hformer⟩ := hadmissible.find_item hfind
    have hholds : image.Holds (.saveItem former) :=
      h.item_stored (List.mem_of_find?_eq_some hfind) (List.mem_of_find?_eq_some hformer)
    have hid : former.id = item.id := Checklist.id_of_findItem? hformer
    have hundoing : ∀ made, (Call.updateItem listId item).undoing made lists =
        [.saveItem former] := by
      intro made
      simp only [undoing, hfind, hformer, Option.elim_some, Option.getD_some]
    apply undoable_of_single (.saveItem (item.moveTo listId))
    · simp only [writes, hfind, Option.elim_some]
    · rw [hundoing]
      apply Image.writeAll_of_holds
      simpa using hholds
    · rw [hundoing]
      exact Image.write_saveItem_saveItem hid.symm hholds

theorem undoable_removeItem {listId itemId : String} (h : Coherent lists image) :
    (Call.removeItem listId itemId).Undoable lists image := by
  cases hfind : (lists.find? (·.id == listId)).bind (·.findItem? itemId) with
  | none =>
    apply undoable_of_none
    · simp only [writes, hfind, Option.elim_none]
    · simp only [undoing, hfind, Option.elim_none, Image.writeAll_nil]
  | some former =>
    obtain ⟨parent, hparent, hformer⟩ := Option.bind_eq_some_iff.1 hfind
    have hholds : image.Holds (.saveItem former) :=
      h.item_stored (List.mem_of_find?_eq_some hparent) (List.mem_of_find?_eq_some hformer)
    have hid : former.id = itemId := Checklist.id_of_findItem? hformer
    have hundoing : ∀ made, (Call.removeItem listId itemId).undoing made lists =
        [.saveItem former] := by
      intro made
      simp only [undoing, hfind, Option.elim_some]
    apply undoable_of_single (.deleteItem itemId)
    · simp only [writes, hfind, Option.elim_some]
    · rw [hundoing]
      apply Image.writeAll_of_holds
      simpa using hholds
    · rw [hundoing, ← hid]
      exact Image.write_deleteItem_saveItem hholds

theorem undoable_addItems {listId : String} {items : List Item}
    (hadmissible : (Call.addItems listId items).Admissible lists image) :
    (Call.addItems listId items).Undoable lists image := by
  cases hfind : lists.find? (·.id == listId) with
  | none =>
    apply undoable_of_none
    · simp only [writes, hfind, Option.elim_none]
    · simp [undoing]
  | some parent =>
    intro made hmade
    simp only [writes, hfind, Option.elim_some] at hmade
    -- The changes that were made store the first items.
    obtain ⟨saved, hsaved, rfl⟩ : ∃ saved, saved <+: items.map (·.moveTo listId) ∧
        saved.map .saveItem = made := by
      refine ⟨(items.map (·.moveTo listId)).take made.length, List.take_prefix _ _, ?_⟩
      rw [List.map_take]
      exact (List.prefix_iff_eq_take.1 hmade).symm
    simp only [undoing, List.length_map]
    rw [← List.prefix_iff_eq_take.1 hsaved]
    apply Image.writeAll_deleteItems_saveItems
    intro moved hmoved
    obtain ⟨item, hitem, rfl⟩ := List.mem_map.1 (hsaved.subset hmoved)
    exact hadmissible.2 item hitem

theorem Admissible.undoable (hadmissible : call.Admissible lists image) (h : Coherent lists image) :
    call.Undoable lists image := by
  cases call with
  | createList list => exact undoable_createList h hadmissible
  | updateList list => exact undoable_updateList h hadmissible
  | deleteList id => exact undoable_deleteList h
  | clearAll => exact undoable_clearAll h
  | addItem listId item => exact undoable_addItem hadmissible
  | updateItem listId item => exact undoable_updateItem h hadmissible
  | removeItem listId itemId => exact undoable_removeItem h
  | addItems listId items => exact undoable_addItems hadmissible
  | _ => exact undoable_of_none rfl rfl

end Undo

section Effect

theorem map_id_moveTo (listId : String) (items : List Item) :
    (items.map (·.moveTo listId)).map (·.id) = items.map (·.id) := by
  rw [List.map_map]
  rfl

theorem changeFirst_of_find?_eq_none {id : String} {f : Checklist → Checklist}
    (h : lists.find? (·.id == id) = none) : changeFirst (·.id == id) f lists = lists :=
  changeFirst_of_any_eq_false (any_of_find?_eq_none h)

theorem coherent_changeFirst {listId : String} {f : Checklist → Checklist} {parent : Checklist}
    {image' : Image} (h : Coherent lists image)
    (hparent : lists.find? (·.id == listId) = some parent)
    (hf : ∀ rest, Coherent (parent :: rest) image → Coherent (f parent :: rest) image') :
    Coherent (changeFirst (·.id == listId) f lists) image' := by
  obtain ⟨rest, hperm, _, hchange⟩ := exists_perm_of_find? hparent
  exact (hf rest (h.perm hperm)).perm (hchange f).symm

theorem writeAll_saves_deleteList {list : Checklist} (hids : (list.items.map (·.id)).Nodup)
    (hitems : ∀ id stored, image.items.get? id = some stored → stored.listId = list.id →
      id ∈ list.items.map (·.id)) :
    (image.write (.deleteList list.id)).writeAll list.saves = image.writeAll list.saves := by
  unfold Checklist.saves
  rw [Image.writeAll_cons, Image.writeAll_cons]
  apply Image.ext_get?
  · intro k
    rw [Image.lists_saveItems, Image.lists_saveItems]
    grind
  · intro k
    by_cases hk : k ∈ list.items.map (·.id)
    · obtain ⟨item, hitem, rfl⟩ := List.mem_map.1 hk
      rw [Image.items_saveItems_of_mem _ hids hitem, Image.items_saveItems_of_mem _ hids hitem]
    · rw [Image.items_saveItems_of_notMem _ _ hk, Image.items_saveItems_of_notMem _ _ hk,
        Image.items_saveList, Image.items_saveList, Image.items_deleteList]
      cases hstored : image.items.get? k with
      | none => rfl
      | some stored =>
        have hother : stored.listId ≠ list.id := fun heq => hk (hitems k stored hstored heq)
        simp [hother]

theorem coherent_eraseList (h : Coherent lists image) (id : String) :
    Coherent (lists.eraseP (·.id == id)) (image.write (.deleteList id)) := by
  cases hfind : lists.find? (·.id == id) with
  | none =>
    rw [List.eraseP_of_forall_not (List.find?_eq_none.1 hfind),
      h.deleteList_of_absent (h.list_absent hfind)]
    exact h
  | some former =>
    have hid : former.id = id := key_eq_of_find? hfind
    obtain ⟨rest, hperm, herase, _⟩ := exists_perm_of_find? hfind
    have hrest := (h.perm hperm).deleteList
    rw [hid] at hrest
    exact hrest.perm herase.symm

theorem coherent_createList {list : Checklist} (h : Coherent lists image)
    (hcompatible : (Call.createList list).Compatible lists image) :
    Coherent ((Call.createList list).effect lists)
      (image.writeAll ((Call.createList list).writes lists)) := by
  obtain ⟨hids, hitems⟩ := hcompatible
  rw [← map_id_moveTo list.id] at hids hitems
  -- It is as if the list were removed first. Then there is the list without items, then its items
  -- are added.
  have herased := coherent_eraseList h list.id
  have hempty : (image.write (.deleteList list.id)).lists.get? list.id = none :=
    (Image.lists_deleteList _ _ _).trans (if_pos rfl)
  have hfull := (herased.createList hempty).addItems hids
    (by
      intro moved hmoved
      show ((image.write (.deleteList list.id)).items.get? moved.id) = none
      rw [Image.items_deleteList, Option.filter_eq_none_iff]
      intro stored hstored
      simp [(hitems _ _ hstored).2 (List.mem_map_of_mem hmoved)])
    (by
      intro moved hmoved
      obtain ⟨item, _, rfl⟩ := List.mem_map.1 hmoved
      rfl)
  simp only [effect, writes]
  rw [← writeAll_saves_deleteList hids fun id stored hstored => (hitems id stored hstored).1]
  exact hfull.perm (putFirst_perm _ _ _).symm

theorem coherent_updateList {list : Checklist} (h : Coherent lists image) :
    Coherent ((Call.updateList list).effect lists)
      (image.writeAll ((Call.updateList list).writes lists)) := by
  cases hfind : lists.find? (·.id == list.id) with
  | none =>
    simp only [effect, any_of_find?_eq_none hfind, Bool.false_eq_true, ↓reduceIte]
    exact (h.createList (h.list_absent hfind)).perm (List.perm_append_singleton _ _).symm
  | some former =>
    have hid : former.id = list.id := key_eq_of_find? hfind
    simp only [effect, any_of_find? hfind, ↓reduceIte]
    exact coherent_changeFirst h hfind fun rest h' => h'.updateList hid

theorem coherent_deleteList {id : String} (h : Coherent lists image) :
    Coherent ((Call.deleteList id).effect lists)
      (image.writeAll ((Call.deleteList id).writes lists)) := by
  cases hfind : lists.find? (·.id == id) with
  | none =>
    simp only [effect, writes, hfind, Option.elim_none, Image.writeAll_nil]
    rw [List.eraseP_of_forall_not (List.find?_eq_none.1 hfind)]
    exact h
  | some former =>
    simp only [effect, writes, hfind, Option.elim_some]
    exact coherent_eraseList h id

theorem coherent_addItems {listId : String} {items : List Item} (h : Coherent lists image)
    (hcompatible : (Call.addItems listId items).Compatible lists image) :
    Coherent ((Call.addItems listId items).effect lists)
      (image.writeAll ((Call.addItems listId items).writes lists)) := by
  cases hfind : lists.find? (·.id == listId) with
  | none =>
    simp only [effect, writes, hfind, Option.elim_none, Image.writeAll_nil]
    rw [changeFirst_of_find?_eq_none hfind]
    exact h
  | some parent =>
    have hid : parent.id = listId := key_eq_of_find? hfind
    obtain ⟨hids, hfresh⟩ := hcompatible ⟨parent, List.mem_of_find?_eq_some hfind, hid⟩
    simp only [effect, writes, hfind, Option.elim_some]
    apply coherent_changeFirst h hfind
    intro rest h'
    apply h'.addItems
    · rw [List.map_map]
      exact hids
    · intro moved hmoved
      obtain ⟨item, hitem, rfl⟩ := List.mem_map.1 hmoved
      exact hfresh item hitem
    · intro moved hmoved
      obtain ⟨item, _, rfl⟩ := List.mem_map.1 hmoved
      exact hid.symm

theorem compatible_addItem_iff {listId : String} {item : Item} :
    (Call.addItem listId item).Compatible lists image ↔
      (Call.addItems listId [item]).Compatible lists image := by
  simp [Compatible]

theorem coherent_addItem {listId : String} {item : Item} (h : Coherent lists image)
    (hcompatible : (Call.addItem listId item).Compatible lists image) :
    Coherent ((Call.addItem listId item).effect lists)
      (image.writeAll ((Call.addItem listId item).writes lists)) :=
  coherent_addItems h (compatible_addItem_iff.1 hcompatible)

theorem coherent_updateItem {listId : String} {item : Item} (h : Coherent lists image)
    (hcompatible : (Call.updateItem listId item).Compatible lists image) :
    Coherent ((Call.updateItem listId item).effect lists)
      (image.writeAll ((Call.updateItem listId item).writes lists)) := by
  cases hfind : lists.find? (·.id == listId) with
  | none =>
    simp only [effect, writes, hfind, Option.elim_none, Image.writeAll_nil]
    rw [changeFirst_of_find?_eq_none hfind]
    exact h
  | some parent =>
    have hparent : parent ∈ lists := List.mem_of_find?_eq_some hfind
    have hparentId : parent.id = listId := key_eq_of_find? hfind
    simp only [effect, writes, hfind, Option.elim_some]
    apply coherent_changeFirst h hfind
    intro rest h'
    cases hformer : parent.items.find? (·.id == item.id) with
    | some former =>
      have hformerId : former.id = item.id := key_eq_of_find? hformer
      obtain ⟨others, hperm, _, hchange⟩ := exists_perm_of_find? hformer
      simp only [putFirst, any_of_find? hformer, ↓reduceIte]
      exact h'.updateItem hperm (hchange _) hformerId.symm hparentId.symm
    -- An item that is not there is added, and nothing is stored under its id.
    | none =>
      have hfresh : image.items.get? item.id = none := by
        rw [Option.eq_none_iff_forall_ne_some]
        intro stored hstored
        have hlistId := hcompatible ⟨parent, hparent, hparentId⟩ stored hstored
        have hmem := h.mem_of_listId hparent hstored (hlistId.trans hparentId.symm)
        exact List.find?_eq_none.1 hformer stored hmem (beq_iff_eq.2 (h.own_itemId hstored))
      rw [putFirst_of_not_any (any_of_find?_eq_none hformer)]
      show Coherent _ (image.writeAll ([item.moveTo listId].map .saveItem))
      apply h'.addItems
      · exact List.nodup_singleton _
      · intro added hadded
        rw [List.mem_singleton.1 hadded]
        exact hfresh
      · intro added hadded
        rw [List.mem_singleton.1 hadded]
        exact hparentId.symm

theorem coherent_removeItem {listId itemId : String} (h : Coherent lists image) :
    Coherent ((Call.removeItem listId itemId).effect lists)
      (image.writeAll ((Call.removeItem listId itemId).writes lists)) := by
  cases hfind : (lists.find? (·.id == listId)).bind (·.findItem? itemId) with
  | none =>
    simp only [effect, writes, hfind, Option.elim_none, Image.writeAll_nil]
    rw [changeFirst_of_fixed]
    · exact h
    · intro parent hparent
      rw [hparent, Option.bind_some] at hfind
      unfold Checklist.findItem? at hfind
      rw [List.filter_eq_self.2]
      intro item hitem
      simpa using List.find?_eq_none.1 hfind item hitem
  | some former =>
    obtain ⟨parent, hparent, hformer⟩ := Option.bind_eq_some_iff.1 hfind
    have hid : former.id = itemId := Checklist.id_of_findItem? hformer
    simp only [effect, writes, hfind, Option.elim_some]
    apply coherent_changeFirst h hparent
    intro rest h'
    have hrest := h'.removeItem (List.mem_of_find?_eq_some hformer)
    rw [hid] at hrest
    exact hrest

theorem Compatible.coherent (hcompatible : call.Compatible lists image)
    (h : Coherent lists image) :
    Coherent (call.effect lists) (image.writeAll (call.writes lists)) := by
  cases call with
  | createList list => exact coherent_createList h hcompatible
  | updateList list => exact coherent_updateList h
  | deleteList id => exact coherent_deleteList h
  | clearAll => exact Coherent.clear
  | addItem listId item => exact coherent_addItem h hcompatible
  | updateItem listId item => exact coherent_updateItem h hcompatible
  | removeItem listId itemId => exact coherent_removeItem h
  | addItems listId items => exact coherent_addItems h hcompatible
  | _ => exact h

theorem Admissible.compatible (hadmissible : call.Admissible lists image)
    (h : Coherent lists image) : call.Compatible lists image := by
  cases call with
  | createList list =>
    obtain ⟨hfresh, hids, hfreshItems⟩ := hadmissible
    refine ⟨hids, ?_⟩
    intro id stored hstored
    apply iff_of_false (h.absent hfresh hstored)
    intro hmem
    obtain ⟨item, hitem, rfl⟩ := List.mem_map.1 hmem
    rw [hfreshItems item hitem] at hstored
    contradiction
  | addItem listId item => exact fun _ => hadmissible
  | updateItem listId item =>
    rintro ⟨parent, hparent, rfl⟩ stored hstored
    obtain ⟨former, hformer, hid⟩ := hadmissible parent hparent rfl
    have hformerStored := h.item_stored hparent hformer
    rw [hid, hstored] at hformerStored
    rw [Option.some.inj hformerStored]
    exact h.parents parent hparent former hformer
  | addItems listId items => exact fun _ => hadmissible
  | _ => trivial

theorem Admissible.coherent (hadmissible : call.Admissible lists image)
    (h : Coherent lists image) :
    Coherent (call.effect lists) (image.writeAll (call.writes lists)) :=
  (hadmissible.compatible h).coherent h

end Effect
end Call

structure Turn where
  call : Call
  fates : List Fate

def World.facing (w : World FaultyStore) (fates : List Fate) : World FaultyStore :=
  { w with storage := ⟨w.image, fates⟩ }

def World.holding (lists : List Checklist) (image : Image) : World FaultyStore :=
  (World.initial .epoch ⟨image, []⟩).publish fun d => { d with lists := lists }

namespace Keeper

open Act World

variable (config : KeeperConfig)

def take (turn : Turn) (w : World FaultyStore) : World FaultyStore :=
  (((faulty config).perform turn.call).run (w.facing turn.fates)).2

def takeAll : List Turn → World FaultyStore → World FaultyStore
  | [], w => w
  | turn :: rest, w => takeAll rest (take config turn w)

/--
What is asked of a turn: the call is admissible, no compensation fails, and none of the items that
are added together is stored by a call that fails.
-/
structure FairTurn (turn : Turn) (w : World FaultyStore) : Prop where
  admissible : turn.call.Admissible w.snapshot.lists w.image
  losesNothing : ∀ listId items, turn.call = .addItems listId items → ∀ e, .lost e ∉ turn.fates
  compensated :
    (take config turn w).tally.compensationFailures = w.tally.compensationFailures

def FairRun : List Turn → World FaultyStore → Prop
  | [], _ => True
  | turn :: rest, w => FairTurn config turn w ∧ FairRun rest (take config turn w)

variable {config} {turn : Turn} {w : World FaultyStore}

def EndsCoherent (w w' : World FaultyStore) : Prop :=
  w'.tally.compensationFailures = w.tally.compensationFailures →
    Coherent w'.snapshot.lists w'.image

theorem ends_mutation (hcall : turn.call.isMutation = true) (hclear : turn.call ≠ .clearAll)
    (hturn : FairTurn config turn w) (h : Coherent w.snapshot.lists w.image) :
    ((faulty config).perform turn.call).Ends (w.facing turn.fates)
      (fun _ w' => EndsCoherent w w') (fun _ w' => EndsCoherent w w') := by
  have hstored := persists_perform config (w.facing turn.fates) hcall hturn.losesNothing
    (hturn.admissible.undoable h)
  have hshown := ends_perform (k := faulty config) (Gateway.discreet_within _)
    (w.facing turn.fates) hcall hclear
  -- Storage and what is shown have either both changed or both stayed as they were.
  apply (hstored.and hshown).mono
  · rintro _ w' ⟨himage, hcommits⟩ _
    rw [himage, hcommits.current]
    exact hturn.admissible.coherent h
  · rintro _ w' ⟨himage, hshows⟩ hfailures
    rw [himage hfailures, hshows.current]
    exact h

theorem ends_clear (fates : List Fate) (h : Coherent w.snapshot.lists w.image) :
    ((faulty config).perform .clearAll).Ends (w.facing fates)
      (fun _ w' => EndsCoherent w w') (fun _ w' => EndsCoherent w w') := by
  have hk : (faulty config).gateway.Discreet := Gateway.discreet_within _
  have hclears : Call.clearAll.isMutation = true := rfl
  have hstored := persists_perform config (w.facing fates) hclears
    (fun _ _ hitems => nomatch hitems) (Call.undoable_clearAll h)
  have hshown := ends_clearAll_shown config (w.facing fates)
  apply ((hstored.and hshown).and (ends_clearAll hk (w.facing fates))).mono
  · rintro _ w' ⟨⟨himage, _⟩, hcommits⟩ _
    rw [himage, hcommits.current]
    exact Coherent.clear
  · rintro e w' ⟨⟨himage, hshows⟩, _⟩ hfailures
    -- The lists that are shown may have been read from storage, in another order.
    rcases hshows hfailures with hlists | hlists
    · rw [himage hfailures, hlists]
      exact h
    · rw [hlists, himage hfailures]
      exact h.load

theorem ends_load (fates : List Fate) (h : Coherent w.snapshot.lists w.image) :
    ((faulty config).perform .loadAll).Ends (w.facing fates)
      (fun _ w' => EndsCoherent w w') (fun _ w' => EndsCoherent w w') := by
  apply Ends.bind (p := fun _ w' => EndsCoherent w w')
  · apply (ends_loadAll config (w.facing fates)).mono
    · rintro _ w' ⟨himage, hlists⟩ _
      rw [himage, hlists]
      exact h.load
    · rintro _ w' ⟨himage, hlists⟩ _
      rw [himage, hlists]
      exact h
  · intro _ w' hw'
    exact hw'

theorem ends_setPeriodText (fates : List Fate) (text : String)
    (h : Coherent w.snapshot.lists w.image) :
    ((faulty config).perform (.setPeriodText text)).Ends (w.facing fates)
      (fun _ w' => EndsCoherent w w') (fun _ w' => EndsCoherent w w') := by
  apply Ends.bind (p := fun _ w' => EndsCoherent w w')
  · unfold setPeriodText
    split
    · exact fun _ => h
    · split
      · exact fun _ => h
      · exact fun _ => h
  · intro _ w' hw'
    exact hw'

theorem coherent_take (hturn : FairTurn config turn w) (h : Coherent w.snapshot.lists w.image) :
    Coherent (take config turn w).snapshot.lists (take config turn w).image := by
  suffices hends : ((faulty config).perform turn.call).Ends (w.facing turn.fates)
      (fun _ w' => EndsCoherent w w') (fun _ w' => EndsCoherent w w') from
    hends.run_snd hturn.compensated
  obtain ⟨call, fates⟩ := turn
  cases call with
  | clearAll => exact ends_clear fates h
  | loadAll => exact ends_load fates h
  | reset => exact hturn.admissible.elim
  | setQuery _ => exact fun _ => h
  | setTopic _ => exact fun _ => h
  | setShowCompleted _ => exact fun _ => h
  | setShowInProgress _ => exact fun _ => h
  | setPeriod _ => exact fun _ => h
  | setPeriodText text => exact ends_setPeriodText fates text h
  | setOrder _ => exact fun _ => h
  | resetCriteria => exact fun _ => h
  | _ => exact ends_mutation rfl (fun hclear => nomatch hclear) hturn h

theorem coherent_takeAll {turns : List Turn} (hturns : FairRun config turns w)
    (h : Coherent w.snapshot.lists w.image) :
    Coherent (takeAll config turns w).snapshot.lists (takeAll config turns w).image := by
  induction turns generalizing w with
  | nil => exact h
  | cons turn rest ih => exact ih hturns.2 (coherent_take hturns.1 h)

/--
What is shown and what is stored fit together after every fair run of turns from the empty state,
wherever the calls of storage have failed, with or without their effect.
-/
theorem coherent_run (config : KeeperConfig) (now : Timestamp) (turns : List Turn)
    (hturns : FairRun config turns (World.initial now ⟨.empty, []⟩)) :
    let w := takeAll config turns (World.initial now ⟨.empty, []⟩)
    Coherent w.snapshot.lists w.image :=
  coherent_takeAll hturns coherent_empty

/--
A list is stored but for its last item, which is stored by a call that fails. It is removed and then
created again. Clearing takes effect and fails, so that all is stored again.
-/
theorem coherent_run_disturbed :
    let list := (Checklist.create "a" "One" .epoch).withItems [Item.create "i" "Tea" "" .epoch]
    let e := Error.persistence "save_item" "disk full"
    let turns : List Turn :=
      [⟨.createList list, [.served, .lost e]⟩, ⟨.createList list, []⟩, ⟨.clearAll, [.lost e]⟩]
    let w := takeAll .initial turns (World.initial .epoch ⟨.empty, []⟩)
    FairRun .initial turns (World.initial .epoch ⟨.empty, []⟩) ∧
      w.image.items.size = 1 ∧ Coherent w.snapshot.lists w.image := by
  intro list e turns w
  have hturns : FairRun .initial turns (World.initial .epoch ⟨.empty, []⟩) := by
    refine ⟨⟨?_, ?_, by decide +kernel⟩, ⟨?_, ?_, by decide +kernel⟩,
      ⟨trivial, ?_, by decide +kernel⟩, trivial⟩
    · exact ⟨by decide +kernel, List.nodup_singleton _, by decide +kernel⟩
    · intro _ _ hcall
      nomatch hcall
    · exact ⟨by decide +kernel, List.nodup_singleton _, by decide +kernel⟩
    · intro _ _ hcall
      nomatch hcall
    · intro _ _ hcall
      nomatch hcall
  exact ⟨hturns, by decide +kernel, coherent_run .initial .epoch turns hturns⟩

end Keeper
end ListKeeper
