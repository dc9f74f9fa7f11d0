import ListKeeper.Proofs.Storage.Image
import Mathlib.Data.List.Nodup

/-!
This module contains what it means that lists and the content of storage fit together, and the
changes of both sides that keep them so. The order of the lists does not matter for this.
-/

namespace ListKeeper

/--
Storage holds exactly the given lists and their items. No two lists have the same id, no two items
have the same id wherever they are, and each item names the list it is in.
-/
structure Coherent (lists : List Checklist) (image : Image) : Prop where
  listIds : (lists.map (·.id)).Nodup
  itemIds : ((lists.flatMap (·.items)).map (·.id)).Nodup
  parents : ∀ list ∈ lists, ∀ item ∈ list.items, item.listId = list.id
  storedLists : ∀ id stored, image.lists.get? id = some stored ↔
    ∃ list ∈ lists, list.id = id ∧ list.withoutItems = stored
  storedItems : ∀ id stored, image.items.get? id = some stored ↔
    ∃ list ∈ lists, stored ∈ list.items ∧ stored.id = id

theorem coherent_empty : Coherent [] .empty where
  listIds := .nil
  itemIds := .nil
  parents := by simp
  storedLists _ _ := by simp [Image.empty]
  storedItems _ _ := by simp [Image.empty]

namespace Coherent

variable {lists rest : List Checklist} {list former : Checklist} {image : Image}

theorem perm {lists' : List Checklist} (h : Coherent lists image) (hperm : lists.Perm lists') :
    Coherent lists' image where
  listIds := (hperm.map _).nodup_iff.1 h.listIds
  itemIds := ((hperm.flatMap_right _).map _).nodup_iff.1 h.itemIds
  parents list hlist := h.parents list (hperm.mem_iff.2 hlist)
  storedLists id stored := by simp only [h.storedLists, hperm.mem_iff]
  storedItems id stored := by simp only [h.storedItems, hperm.mem_iff]

theorem list_stored (h : Coherent lists image) (hlist : list ∈ lists) :
    image.lists.get? list.id = some list.withoutItems :=
  (h.storedLists _ _).2 ⟨list, hlist, rfl, rfl⟩

theorem item_stored (h : Coherent lists image) (hlist : list ∈ lists) {item : Item}
    (hitem : item ∈ list.items) : image.items.get? item.id = some item :=
  (h.storedItems _ _).2 ⟨list, hlist, hitem, rfl⟩

theorem eq_of_listId {other : Checklist} (h : Coherent lists image) (hlist : list ∈ lists)
    (hother : other ∈ lists) (hid : list.id = other.id) : list = other :=
  List.inj_on_of_nodup_map h.listIds hlist hother hid

theorem mem_of_listId (h : Coherent lists image) (hlist : list ∈ lists) {k : String} {item : Item}
    (hitem : image.items.get? k = some item) (hparent : item.listId = list.id) :
    item ∈ list.items := by
  obtain ⟨other, hother, hmem, _⟩ := (h.storedItems _ _).1 hitem
  have hid : other.id = list.id := (h.parents other hother item hmem).symm.trans hparent
  rw [← h.eq_of_listId hother hlist hid]
  exact hmem

theorem holds_saves (h : Coherent lists image) (hlist : list ∈ lists) {change : Write}
    (hchange : change ∈ list.saves) : image.Holds change := by
  unfold Checklist.saves at hchange
  rcases List.mem_cons.1 hchange with rfl | hmem
  · exact h.list_stored hlist
  · obtain ⟨item, hitem, rfl⟩ := List.mem_map.1 hmem
    exact h.item_stored hlist hitem

theorem absent (h : Coherent lists image) {id : String} (hid : image.lists.get? id = none)
    {k : String} {item : Item} (hitem : image.items.get? k = some item) : item.listId ≠ id := by
  intro hparent
  obtain ⟨list, hlist, hmem, _⟩ := (h.storedItems _ _).1 hitem
  have hstored := h.list_stored hlist
  rw [← h.parents list hlist item hmem, hparent, hid] at hstored
  contradiction

theorem deleteList_of_absent (h : Coherent lists image) {id : String}
    (hid : image.lists.get? id = none) : image.write (.deleteList id) = image :=
  Image.write_deleteList_of_absent hid fun _ _ hitem => h.absent hid hitem

theorem list_absent (h : Coherent lists image) {id : String}
    (hid : lists.find? (·.id == id) = none) : image.lists.get? id = none := by
  rw [Option.eq_none_iff_forall_ne_some]
  intro stored hstored
  obtain ⟨list, hlist, hlistId, _⟩ := (h.storedLists _ _).1 hstored
  exact List.find?_eq_none.1 hid list hlist (beq_iff_eq.2 hlistId)

theorem createList (h : Coherent lists image) (hfresh : image.lists.get? list.id = none) :
    Coherent (list.withoutItems :: lists) (image.write (.saveList list)) where
  listIds := by
    rw [List.map_cons, List.nodup_cons]
    refine ⟨?_, h.listIds⟩
    intro hmem
    obtain ⟨other, hother, hid⟩ := List.mem_map.1 hmem
    have hstored := h.list_stored hother
    rw [show other.id = list.id from hid, hfresh] at hstored
    contradiction
  itemIds := h.itemIds
  parents := by
    intro other hother
    rcases List.mem_cons.1 hother with rfl | hmem
    · intro item hitem
      simp [Checklist.withoutItems] at hitem
    · exact h.parents other hmem
  storedLists id stored := by
    rw [Image.lists_saveList]
    simp only [List.mem_cons, exists_eq_or_imp, ← h.storedLists]
    split
    · next hid =>
      subst hid
      rw [hfresh]
      simp [Checklist.withoutItems]
    · next hid => simp [Checklist.withoutItems, Ne.symm hid]
  storedItems id stored := by
    rw [Image.items_saveList, h.storedItems]
    simp [Checklist.withoutItems]

theorem updateList (h : Coherent (former :: rest) image) (hid : former.id = list.id) :
    Coherent (list.withItems former.items :: rest) (image.write (.saveList list)) where
  listIds := by
    have hids := h.listIds
    rw [List.map_cons, hid] at hids
    exact hids
  itemIds := h.itemIds
  parents := by
    intro other hother
    rcases List.mem_cons.1 hother with rfl | hmem
    · intro item hitem
      rw [h.parents former (by simp) item hitem, hid]
      rfl
    · exact h.parents other (by simp [hmem])
  storedLists id stored := by
    have hids := h.listIds
    rw [List.map_cons, List.nodup_cons, hid] at hids
    rw [Image.lists_saveList]
    simp only [List.mem_cons, exists_eq_or_imp]
    split
    · next heq =>
      subst heq
      constructor
      · intro hstored
        exact .inl ⟨rfl, Option.some.inj hstored⟩
      · rintro (⟨_, hstored⟩ | ⟨other, hother, hother', _⟩)
        · exact congrArg some hstored
        · exact absurd (hother' ▸ List.mem_map_of_mem hother) hids.1
    · next hne =>
      rw [h.storedLists]
      simp only [List.mem_cons, exists_eq_or_imp, hid]
      simp [Checklist.withItems, Ne.symm hne]
  storedItems id stored := by
    rw [Image.items_saveList, h.storedItems]
    simp [Checklist.withItems]

theorem withItems {image' : Image} {items : List Item} (h : Coherent (list :: rest) image)
    (hids : ((items ++ rest.flatMap (·.items)).map (·.id)).Nodup)
    (hparents : ∀ item ∈ items, item.listId = list.id)
    (hlists : ∀ k, image'.lists.get? k = image.lists.get? k)
    (hitems : ∀ k stored, image'.items.get? k = some stored ↔
      stored ∈ items ∧ stored.id = k ∨ ∃ other ∈ rest, stored ∈ other.items ∧ stored.id = k) :
    Coherent (list.withItems items :: rest) image' where
  listIds := h.listIds
  itemIds := hids
  parents := by
    intro other hother
    rcases List.mem_cons.1 hother with rfl | hmem
    · exact hparents
    · exact h.parents other (by simp [hmem])
  storedLists id stored := by
    rw [hlists, h.storedLists]
    simp only [List.mem_cons, exists_eq_or_imp]
    exact Iff.rfl
  storedItems id stored := by
    rw [hitems]
    simp only [List.mem_cons, exists_eq_or_imp]
    exact Iff.rfl

theorem addItems {items : List Item} (h : Coherent (list :: rest) image)
    (hids : (items.map (·.id)).Nodup) (hfresh : ∀ item ∈ items, image.items.get? item.id = none)
    (hparents : ∀ item ∈ items, item.listId = list.id) :
    Coherent (list.withItems (list.items ++ items) :: rest)
      (image.writeAll (items.map .saveItem)) := by
  -- A new item does not have the id of one that is there, because that one is stored.
  have hnew : ∀ other ∈ list :: rest, ∀ item ∈ other.items, item.id ∉ items.map (·.id) := by
    intro other hother item hitem hmem
    obtain ⟨fresh, hfreshMem, hid⟩ := List.mem_map.1 hmem
    have hstored := h.item_stored hother hitem
    rw [← hid, hfresh fresh hfreshMem] at hstored
    contradiction
  apply h.withItems
  · have hperm : (list.items ++ items ++ rest.flatMap (·.items)).Perm
        (items ++ (list :: rest).flatMap (·.items)) := by
      rw [List.flatMap_cons, ← List.append_assoc]
      exact List.perm_append_comm.append_right _
    rw [(hperm.map _).nodup_iff, List.map_append, List.nodup_append]
    refine ⟨hids, h.itemIds, ?_⟩
    intro id hid id' hid' heq
    obtain ⟨item, hitem, rfl⟩ := List.mem_map.1 hid'
    obtain ⟨other, hother, hmem⟩ := List.mem_flatMap.1 hitem
    exact hnew other hother item hmem (heq ▸ hid)
  · intro item hitem
    rcases List.mem_append.1 hitem with hold | hadded
    · exact h.parents list (by simp) item hold
    · exact hparents item hadded
  · intro k
    exact Image.lists_saveItems _ _ _
  · intro k stored
    by_cases hk : k ∈ items.map (·.id)
    · obtain ⟨item, hitem, rfl⟩ := List.mem_map.1 hk
      rw [Image.items_saveItems_of_mem _ hids hitem]
      constructor
      · intro heq
        cases heq
        exact .inl ⟨by simp [hitem], rfl⟩
      · rintro (⟨hmem, hid⟩ | ⟨other, hother, hmem, hid⟩)
        · rcases List.mem_append.1 hmem with hold | hadded
          · exact absurd hk (hid ▸ hnew list (by simp) stored hold)
          · have hstored := Image.items_saveItems_of_mem image hids hadded
            rw [hid, Image.items_saveItems_of_mem image hids hitem] at hstored
            exact hstored
        · exact absurd hk (hid ▸ hnew other (by simp [hother]) stored hmem)
    · rw [Image.items_saveItems_of_notMem _ _ hk, h.storedItems]
      simp only [List.mem_cons, exists_eq_or_imp, List.mem_append]
      constructor
      · rintro (⟨hmem, hid⟩ | hother)
        · exact .inl ⟨.inl hmem, hid⟩
        · exact .inr hother
      · rintro (⟨hmem | hadded, hid⟩ | hother)
        · exact .inl ⟨hmem, hid⟩
        · exact absurd (hid ▸ List.mem_map_of_mem hadded) hk
        · exact .inr hother

theorem single (hids : (list.items.map (·.id)).Nodup)
    (hparents : ∀ item ∈ list.items, item.listId = list.id) :
    Coherent [list] (Image.empty.writeAll list.saves) :=
  (coherent_empty.createList rfl).addItems hids (fun _ _ => rfl) hparents

theorem updateItem {old new : Item} {others items : List Item} (h : Coherent (list :: rest) image)
    (hold : list.items.Perm (old :: others)) (hnew : items.Perm (new :: others))
    (hid : new.id = old.id) (hparent : new.listId = list.id) :
    Coherent (list.withItems items :: rest) (image.write (.saveItem new)) := by
  have hids := h.itemIds
  rw [List.flatMap_cons, ((hold.append_right _).map _).nodup_iff, List.cons_append,
    List.map_cons, List.nodup_cons, ← hid] at hids
  apply h.withItems
  · rw [((hnew.append_right _).map _).nodup_iff, List.cons_append, List.map_cons, List.nodup_cons]
    exact hids
  · intro item hitem
    rcases List.mem_cons.1 (hnew.mem_iff.1 hitem) with rfl | hother
    · exact hparent
    · exact h.parents list (by simp) item (hold.mem_iff.2 (by simp [hother]))
  · intro k
    rfl
  · intro k stored
    simp only [hnew.mem_iff, List.mem_cons]
    rw [Image.items_saveItem]
    split
    · next hk =>
      subst hk
      constructor
      · intro heq
        cases heq
        exact .inl ⟨.inl rfl, rfl⟩
      · rintro (⟨rfl | hmem, hstored⟩ | ⟨other, hother, hmem, hstored⟩)
        · rfl
        · exact absurd (hstored ▸ List.mem_map_of_mem (List.mem_append_left _ hmem)) hids.1
        · have hrest : stored ∈ rest.flatMap (·.items) := List.mem_flatMap.2 ⟨other, hother, hmem⟩
          exact absurd (hstored ▸ List.mem_map_of_mem (List.mem_append_right _ hrest)) hids.1
    · next hk =>
      rw [h.storedItems]
      simp only [List.mem_cons, exists_eq_or_imp, hold.mem_iff]
      constructor
      · rintro (⟨rfl | hmem, hstored⟩ | hother)
        · exact absurd (hstored.symm.trans hid.symm) hk
        · exact .inl ⟨.inr hmem, hstored⟩
        · exact .inr hother
      · rintro (⟨rfl | hmem, hstored⟩ | hother)
        · exact absurd hstored.symm hk
        · exact .inl ⟨.inr hmem, hstored⟩
        · exact .inr hother

theorem removeItem {old : Item} (h : Coherent (list :: rest) image) (hold : old ∈ list.items) :
    Coherent (list.withItems (list.items.filter (·.id != old.id)) :: rest)
      (image.write (.deleteItem old.id)) := by
  have hids := h.itemIds
  rw [List.flatMap_cons] at hids
  apply h.withItems
  · exact hids.sublist ((List.filter_sublist.append_right _).map _)
  · intro item hitem
    exact h.parents list (by simp) item (List.mem_filter.1 hitem).1
  · intro k
    rfl
  · intro k stored
    rw [Image.items_deleteItem]
    simp only [List.mem_filter, bne_iff_ne]
    split
    · next hk =>
      subst hk
      constructor
      · intro heq
        contradiction
      · rintro (⟨⟨_, hne⟩, hstored⟩ | ⟨other, hother, hmem, hstored⟩)
        · exact absurd hstored hne
        · rw [List.map_append, List.nodup_append] at hids
          have hrest : stored ∈ rest.flatMap (·.items) := List.mem_flatMap.2 ⟨other, hother, hmem⟩
          exact absurd hstored.symm
            (hids.2.2 _ (List.mem_map_of_mem hold) _ (List.mem_map_of_mem hrest))
    · next hk =>
      rw [h.storedItems]
      simp only [List.mem_cons, exists_eq_or_imp]
      constructor
      · rintro (⟨hmem, hstored⟩ | hother)
        · exact .inl ⟨⟨hmem, hstored ▸ hk⟩, hstored⟩
        · exact .inr hother
      · rintro (⟨⟨hmem, _⟩, hstored⟩ | hother)
        · exact .inl ⟨hmem, hstored⟩
        · exact .inr hother

theorem deleteList (h : Coherent (list :: rest) image) :
    Coherent rest (image.write (.deleteList list.id)) := by
  have hids := h.listIds
  rw [List.map_cons, List.nodup_cons] at hids
  have hitemIds := h.itemIds
  rw [List.flatMap_cons, List.map_append] at hitemIds
  refine ⟨hids.2, (List.nodup_append.1 hitemIds).2.1, ?_, ?_, ?_⟩
  · intro other hother
    exact h.parents other (by simp [hother])
  · intro id stored
    rw [Image.lists_deleteList]
    split
    · next hid =>
      subst hid
      constructor
      · intro heq
        contradiction
      · rintro ⟨other, hother, hother', _⟩
        exact absurd (hother' ▸ List.mem_map_of_mem hother) hids.1
    · next hid =>
      rw [h.storedLists]
      simp [Ne.symm hid]
  · intro id stored
    rw [Image.items_deleteList, Option.filter_eq_some_iff, h.storedItems]
    simp only [List.mem_cons, exists_eq_or_imp, bne_iff_ne]
    constructor
    · rintro ⟨⟨hmem, _⟩ | hother, hne⟩
      · exact absurd (h.parents list (by simp) stored hmem) hne
      · exact hother
    · rintro ⟨other, hother, hmem, hstored⟩
      refine ⟨.inr ⟨other, hother, hmem, hstored⟩, ?_⟩
      intro heq
      rw [h.parents other (by simp [hother]) stored hmem] at heq
      exact absurd (heq ▸ List.mem_map_of_mem hother) hids.1

theorem clear : Coherent [] (image.write .clear) :=
  coherent_empty

section Load

theorem own_listId (h : Coherent lists image) {k : String} {stored : Checklist}
    (hstored : image.lists.get? k = some stored) : stored.id = k := by
  obtain ⟨list, _, hid, rfl⟩ := (h.storedLists _ _).1 hstored
  exact hid

theorem own_itemId (h : Coherent lists image) {k : String} {stored : Item}
    (hstored : image.items.get? k = some stored) : stored.id = k := by
  obtain ⟨_, _, _, hid⟩ := (h.storedItems _ _).1 hstored
  exact hid

theorem nodup_allLists (h : Coherent lists image) : (image.allLists.map (·.id)).Nodup := by
  unfold Image.allLists
  rw [((List.mergeSort_perm _ _).map _).nodup_iff]
  apply Index.nodup_values
  intro k stored hstored
  exact h.own_listId hstored

theorem nodup_itemsOf (h : Coherent lists image) (listId : String) :
    ((image.itemsOf listId).map (·.id)).Nodup := by
  unfold Image.itemsOf
  rw [((List.mergeSort_perm _ _).map _).nodup_iff]
  have hvalues := Index.nodup_values image.items fun k stored hstored => h.own_itemId hstored
  exact hvalues.sublist (List.filter_sublist.map _)

theorem nodup_loadedItems (h : Coherent lists image) :
    ((image.loaded.flatMap (·.items)).map (·.id)).Nodup := by
  unfold Image.loaded
  rw [List.flatMap_map, List.map_flatMap]
  apply List.pairwise_flatMap.2
  constructor
  · intro list _
    exact h.nodup_itemsOf list.id
  · apply List.Pairwise.imp _ (List.pairwise_map.1 h.nodup_allLists)
    intro list list' hne id hid id' hid' heq
    obtain ⟨item, hitem, rfl⟩ := List.mem_map.1 hid
    obtain ⟨item', hitem', rfl⟩ := List.mem_map.1 hid'
    obtain ⟨hparent, k, hk⟩ := (Image.mem_itemsOf _ _).1 hitem
    obtain ⟨hparent', k', hk'⟩ := (Image.mem_itemsOf _ _).1 hitem'
    -- Both items are stored under the same id, so they are one and name one list.
    rw [← h.own_itemId hk, heq, h.own_itemId hk', hk'] at hk
    cases hk
    exact hne (hparent.symm.trans hparent')

theorem load (h : Coherent lists image) : Coherent image.loaded image where
  listIds := by
    unfold Image.loaded
    rw [List.map_map]
    exact h.nodup_allLists
  itemIds := h.nodup_loadedItems
  parents := by
    intro list hlist item hitem
    obtain ⟨stored, _, rfl⟩ := List.mem_map.1 hlist
    exact ((Image.mem_itemsOf _ _).1 hitem).1
  storedLists id stored := by
    constructor
    · intro hstored
      have hid : stored.id = id := h.own_listId hstored
      refine ⟨stored.withItems (image.itemsOf stored.id), ?_, hid, ?_⟩
      · exact List.mem_map_of_mem ((Image.mem_allLists _).2 ⟨id, hstored⟩)
      · obtain ⟨list, _, _, rfl⟩ := (h.storedLists _ _).1 hstored
        rfl
    · rintro ⟨list, hlist, rfl, rfl⟩
      obtain ⟨stored, hmem, rfl⟩ := List.mem_map.1 hlist
      obtain ⟨k, hk⟩ := (Image.mem_allLists _).1 hmem
      have hid := h.own_listId hk
      obtain ⟨list, _, _, rfl⟩ := (h.storedLists _ _).1 hk
      rw [← hid] at hk
      exact hk
  storedItems id stored := by
    constructor
    · intro hstored
      obtain ⟨list, hlist, hmem, hid⟩ := (h.storedItems _ _).1 hstored
      refine ⟨list.withoutItems.withItems (image.itemsOf list.id), ?_, ?_, hid⟩
      · exact List.mem_map_of_mem ((Image.mem_allLists _).2 ⟨_, h.list_stored hlist⟩)
      · exact (Image.mem_itemsOf _ _).2 ⟨h.parents list hlist stored hmem, id, hstored⟩
    · rintro ⟨list, hlist, hmem, rfl⟩
      obtain ⟨_, _, rfl⟩ := List.mem_map.1 hlist
      obtain ⟨_, k, hk⟩ := (Image.mem_itemsOf _ _).1 hmem
      rw [h.own_itemId hk]
      exact hk

end Load

end Coherent
end ListKeeper
