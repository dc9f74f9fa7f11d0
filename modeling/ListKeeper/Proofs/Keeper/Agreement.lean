import ListKeeper.Proofs.Keeper.Coherence
import Mathlib.Data.Multiset.Defs

/-!
This module contains when what is shown and what is stored agree after a call that has succeeded.
What is shown is changed inside one list, while storage replaces items by their ids wherever they
are, so ids that are taken can bring the two apart. It is said exactly which ids do.
-/

namespace ListKeeper

def Checklist.content (list : Checklist) : Checklist × Multiset Item :=
  (list.withoutItems, list.items)

def SameLists (lists lists' : List Checklist) : Prop :=
  (lists.map (·.content)).Perm (lists'.map (·.content))

instance (lists lists' : List Checklist) : Decidable (SameLists lists lists') :=
  inferInstanceAs (Decidable (List.Perm _ _))

/--
What is shown agrees with what is stored: no two items have the same id, and what is read from
storage is what is shown, up to order.
-/
structure Agrees (lists : List Checklist) (image : Image) : Prop where
  itemIds : ((lists.flatMap (·.items)).map (·.id)).Nodup
  loaded : SameLists lists image.loaded

section SameLists

variable {lists lists' : List Checklist} {list : Checklist} {image : Image}

theorem SameLists.exists_perm (h : SameLists lists lists') (hlist : list ∈ lists') :
    ∃ list' ∈ lists, list'.withoutItems = list.withoutItems ∧ list'.items.Perm list.items := by
  have hmem : list.content ∈ lists.map (·.content) :=
    h.mem_iff.2 (List.mem_map_of_mem hlist)
  obtain ⟨list', hlist', hcontent⟩ := List.mem_map.1 hmem
  refine ⟨list', hlist', congrArg Prod.fst hcontent, ?_⟩
  exact Multiset.coe_eq_coe.1 (congrArg Prod.snd hcontent)

namespace Coherent

theorem nodup_items (h : Coherent lists image) (hlist : list ∈ lists) : list.items.Nodup := by
  have hids := (List.nodup_flatMap.1 h.itemIds.of_map).1
  exact hids list hlist

theorem nodup_contents (h : Coherent lists image) : (lists.map (·.content)).Nodup := by
  have hids := h.listIds
  rw [show lists.map (·.id) = (lists.map (·.content)).map (·.1.id) by
    rw [List.map_map]; rfl] at hids
  exact hids.of_map

theorem content_mem (h : Coherent lists image) (h' : Coherent lists' image) (hlist : list ∈ lists) :
    list.content ∈ lists'.map (·.content) := by
  obtain ⟨list', hlist', hid, hfields⟩ := (h'.storedLists _ _).1 (h.list_stored hlist)
  have hitems : list'.items.Perm list.items := by
    rw [List.perm_ext_iff_of_nodup (h'.nodup_items hlist') (h.nodup_items hlist)]
    intro item
    constructor
    · intro hitem
      apply h.mem_of_listId hlist (h'.item_stored hlist' hitem)
      rw [h'.parents list' hlist' item hitem, hid]
    · intro hitem
      apply h'.mem_of_listId hlist' (h.item_stored hlist hitem)
      rw [h.parents list hlist item hitem, hid]
  have hcontent : list'.content = list.content := by
    unfold Checklist.content
    rw [hfields, Multiset.coe_eq_coe.2 hitems]
  rw [← hcontent]
  exact List.mem_map_of_mem hlist'

theorem sameLists (h : Coherent lists image) (h' : Coherent lists' image) :
    SameLists lists lists' := by
  unfold SameLists
  rw [List.perm_ext_iff_of_nodup h.nodup_contents h'.nodup_contents]
  intro content
  constructor
  · intro hmem
    obtain ⟨list, hlist, rfl⟩ := List.mem_map.1 hmem
    exact h.content_mem h' hlist
  · intro hmem
    obtain ⟨list, hlist, rfl⟩ := List.mem_map.1 hmem
    exact h'.content_mem h hlist

theorem agrees (h : Coherent lists image) : Agrees lists image :=
  ⟨h.itemIds, h.sameLists h.load⟩

end Coherent
end SameLists

namespace Call

variable {call : Call} {lists rest : List Checklist} {list : Checklist} {image : Image}

theorem notMem_of_nodup (h : ((lists.flatMap (·.items)).map (·.id)).Nodup)
    (hperm : lists.Perm (list :: rest)) {other : Checklist} (hother : other ∈ rest) {item : Item}
    (hitem : item ∈ other.items) : item.id ∉ list.items.map (·.id) := by
  intro hmem
  rw [((hperm.flatMap_right _).map _).nodup_iff, List.flatMap_cons, List.map_append,
    List.nodup_append] at h
  have hrest : item ∈ rest.flatMap (·.items) := List.mem_flatMap.2 ⟨other, hother, hitem⟩
  exact h.2.2 _ hmem _ (List.mem_map_of_mem hrest) rfl

theorem exists_loaded_createList (lists : List Checklist) {id : String} {stored : Item}
    (hstored : image.items.get? id = some stored) (hlistId : stored.listId = list.id)
    (hid : id ∉ list.items.map (·.id)) :
    ∃ read ∈ (image.writeAll ((Call.createList list).writes lists)).loaded,
      read.id = list.id ∧ stored ∈ read.items := by
  rw [← map_id_moveTo list.id] at hid
  have hkept : (image.writeAll ((Call.createList list).writes lists)).items.get? id =
      some stored :=
    (Image.items_saveItems_of_notMem _ _ hid).trans hstored
  have hlist : (image.writeAll ((Call.createList list).writes lists)).lists.get? list.id =
      some list.withoutItems := by
    apply (Image.lists_saveItems _ _ _).trans
    exact (Image.lists_saveList _ _ _).trans (if_pos rfl)
  refine ⟨_, List.mem_map_of_mem ((Image.mem_allLists _).2 ⟨_, hlist⟩), rfl, ?_⟩
  exact (Image.mem_itemsOf _ _).2 ⟨hlistId, id, hkept⟩

theorem compatible_of_agrees_createList (h : Coherent lists image)
    (hagrees : Agrees ((Call.createList list).effect lists)
      (image.writeAll ((Call.createList list).writes lists))) :
    (Call.createList list).Compatible lists image := by
  have hperm : ((Call.createList list).effect lists).Perm
      (list.withItems (list.items.map (·.moveTo list.id)) :: lists.eraseP (·.id == list.id)) :=
    putFirst_perm _ _ _
  refine ⟨?_, ?_⟩
  · have hids := hagrees.itemIds
    rw [((hperm.flatMap_right _).map _).nodup_iff, List.flatMap_cons, List.map_append,
      List.nodup_append] at hids
    rw [← map_id_moveTo list.id]
    exact hids.1
  intro id stored hstored
  have hid : stored.id = id := h.own_itemId hstored
  constructor
  · intro hlistId
    by_contra hmem
    obtain ⟨read, hread, hreadId, hitem⟩ := exists_loaded_createList lists hstored hlistId hmem
    obtain ⟨shown, hshown, hfields, hitems⟩ := hagrees.loaded.exists_perm hread
    have hshownId : shown.id = list.id := (congrArg Checklist.id hfields).trans hreadId
    -- There is only one list with the id that the item can be shown in.
    rcases List.mem_cons.1 (hperm.mem_iff.1 hshown) with rfl | hrest
    · apply hmem
      rw [← map_id_moveTo list.id, ← hid]
      exact List.mem_map_of_mem (hitems.mem_iff.2 hitem)
    · have hgone := (coherent_eraseList h list.id).list_stored hrest
      rw [Image.lists_deleteList, if_pos hshownId] at hgone
      contradiction
  · intro hmem
    by_contra hother
    obtain ⟨other, hotherMem, hitem, _⟩ := (h.storedItems _ _).1 hstored
    have hrest : other ∈ lists.eraseP (·.id == list.id) := by
      rw [List.mem_eraseP_of_neg]
      · exact hotherMem
      · rw [← h.parents other hotherMem stored hitem]
        simpa using hother
    apply notMem_of_nodup hagrees.itemIds hperm hrest hitem
    rw [hid]
    exact (map_id_moveTo list.id list.items).symm ▸ hmem

theorem compatible_of_agrees_addItems {listId : String} {items : List Item}
    (h : Coherent lists image)
    (hids : ((((Call.addItems listId items).effect lists).flatMap (·.items)).map (·.id)).Nodup) :
    (Call.addItems listId items).Compatible lists image := by
  intro hparent
  obtain ⟨parent, hfind⟩ := find?_of_exists hparent
  obtain ⟨rest, hperm, _, hchange⟩ := exists_perm_of_find? hfind
  have hitems : (((Call.addItems listId items).effect lists).flatMap (·.items)).Perm
      (items.map (·.moveTo listId) ++ lists.flatMap (·.items)) := by
    apply ((hchange _).flatMap_right _).trans
    apply List.Perm.trans _ ((hperm.flatMap_right _).symm.append_left _)
    rw [List.flatMap_cons, List.flatMap_cons, ← List.append_assoc]
    exact List.perm_append_comm.append_right _
  rw [(hitems.map _).nodup_iff, List.map_append, map_id_moveTo, List.nodup_append] at hids
  refine ⟨hids.1, ?_⟩
  intro item hitem
  rw [Option.eq_none_iff_forall_ne_some]
  intro stored hstored
  obtain ⟨other, hother, hmem, hid⟩ := (h.storedItems _ _).1 hstored
  have hshown : stored ∈ lists.flatMap (·.items) := List.mem_flatMap.2 ⟨other, hother, hmem⟩
  exact hids.2.2 _ (List.mem_map_of_mem hitem) _ (List.mem_map_of_mem hshown) hid.symm

theorem compatible_of_agrees_updateItem {listId : String} {item : Item}
    (h : Coherent lists image)
    (hids : ((((Call.updateItem listId item).effect lists).flatMap (·.items)).map (·.id)).Nodup) :
    (Call.updateItem listId item).Compatible lists image := by
  intro hparent stored hstored
  obtain ⟨parent, hfind⟩ := find?_of_exists hparent
  obtain ⟨rest, hperm, _, hchange⟩ := exists_perm_of_find? hfind
  by_contra hother
  obtain ⟨list, hlist, hitem, hid⟩ := (h.storedItems _ _).1 hstored
  -- The item is shown in another list as well.
  have hrest : list ∈ rest := by
    apply (List.mem_cons.1 (hperm.mem_iff.1 hlist)).resolve_left
    rintro rfl
    exact hother ((h.parents list hlist stored hitem).trans (key_eq_of_find? hfind))
  apply notMem_of_nodup hids (hchange _) hrest hitem
  rw [hid]
  have hmem : item.moveTo listId ∈ putFirst (·.id == item.id) (item.moveTo listId) parent.items :=
    (putFirst_perm _ _ _).mem_iff.2 List.mem_cons_self
  exact List.mem_map_of_mem (f := (·.id)) hmem

theorem agrees_iff (h : Coherent lists image) :
    Agrees (call.effect lists) (image.writeAll (call.writes lists)) ↔
      call.Compatible lists image := by
  constructor
  · intro hagrees
    cases call with
    | createList list => exact compatible_of_agrees_createList h hagrees
    | addItem listId item =>
      exact compatible_addItem_iff.2 (compatible_of_agrees_addItems h hagrees.itemIds)
    | updateItem listId item => exact compatible_of_agrees_updateItem h hagrees.itemIds
    | addItems listId items => exact compatible_of_agrees_addItems h hagrees.itemIds
    | _ => trivial
  · intro hcompatible
    exact (hcompatible.coherent h).agrees

end Call

namespace Keeper

open Act World

variable (config : KeeperConfig)

/--
No two items that are shown have the same id, and reading everything from storage, if it succeeds,
shows the same lists with the same items up to their order.
-/
structure InStep (w : World FaultyStore) : Prop where
  itemIds : ((w.snapshot.lists.flatMap (·.items)).map (·.id)).Nodup
  loaded : ∀ fates s w', (faulty config).loadAll.run (w.facing fates) = (.ok s, w') →
    SameLists w.snapshot.lists w'.snapshot.lists

variable (w : World FaultyStore)

theorem exists_load : ∃ s w', (faulty config).loadAll.run (w.facing []) = (.ok s, w') ∧
    w'.snapshot.lists = w.image.loaded := by
  have hserved : (faulty config).loadAll.Ends (w.facing []) (fun _ _ => True)
      (fun _ _ => False) := by
    unfold loadAll
    apply Ends.bind (p := fun _ w₁ => w₁.storage.fates = [])
    · rfl
    intro _ w₁ h₁
    apply Ends.bind (p := fun _ w₂ => w₂.storage.fates = [])
    · exact h₁
    intro _ w₂ h₂
    obtain ⟨reads, _, hfetch⟩ := takes_fetchAll config (w := w₂)
    apply Ends.bindOutcome (hfetch.served h₂)
    · intro _ _ _
      trivial
    · intro _ _ h
      exact h
  rcases hload : (faulty config).loadAll.run (w.facing []) with ⟨e | s, w'⟩
  · exact (hserved.of_error hload).elim
  · exact ⟨s, w', rfl, ((ends_loadAll config (w.facing [])).of_ok hload).2⟩

theorem inStep_iff : InStep config w ↔ Agrees w.snapshot.lists w.image := by
  constructor
  · intro h
    obtain ⟨s, w', hload, hlists⟩ := exists_load config w
    exact ⟨h.itemIds, hlists ▸ h.loaded [] s w' hload⟩
  · intro h
    refine ⟨h.itemIds, ?_⟩
    intro fates s w' hload
    rw [((ends_loadAll config (w.facing fates)).of_ok hload).2]
    exact h.loaded

theorem ends_perform_shown {call : Call} (hcall : call.isMutation = true) :
    ((faulty config).perform call).Ends w
      (fun _ w' => w'.snapshot.lists = call.effect w.snapshot.lists) (fun _ _ => True) := by
  have hk : (faulty config).gateway.Discreet := Gateway.discreet_within _
  by_cases hclear : call = .clearAll
  · subst hclear
    exact (ends_clearAll hk w).mono (fun _ _ h => h.current) (fun _ _ _ => trivial)
  · exact (ends_perform hk w hcall hclear).mono (fun _ _ h => h.current) (fun _ _ _ => trivial)

/--
A call that changes lists and succeeds keeps what is shown and what is stored in step, if and only
if it is compatible with what is stored. Then the two also fit together as they did before.
-/
theorem inStep_perform_iff (config : KeeperConfig) (call : Call)
    (hcall : call.isMutation = true) (w : World FaultyStore)
    (h : Coherent w.snapshot.lists w.image) (fates : List Fate) {reply : Reply}
    {w' : World FaultyStore}
    (hrun : ((faulty config).perform call).run (w.facing fates) = (.ok reply, w')) :
    (InStep config w' ↔ call.Compatible w.snapshot.lists w.image) ∧
      (call.Compatible w.snapshot.lists w.image → Coherent w'.snapshot.lists w'.image) := by
  have hshown : w'.snapshot.lists = call.effect w.snapshot.lists :=
    (ends_perform_shown config (w.facing fates) hcall).of_ok hrun
  have hstored : w'.image = w.image.writeAll (call.writes w.snapshot.lists) :=
    ((settles_perform config (w.facing fates) hcall).of_ok hrun).1
  rw [inStep_iff, hshown, hstored]
  exact ⟨Call.agrees_iff h, fun hcompatible => hcompatible.coherent h⟩

/--
A list is created again under its id. It takes over the item that is stored and brings another one.
-/
theorem inStep_perform_iff_takenOver :
    let list := (Checklist.create "a" "One" .epoch).withItems [Item.create "i" "Tea" "a" .epoch]
    let longer := list.withItems (list.items ++ [Item.create "j" "Milk" "a" .epoch])
    let w := holding [list] (Image.empty.writeAll list.saves)
    let r := ((faulty .initial).perform (.createList longer)).run (w.facing [])
    (Call.createList longer).isMutation = true ∧ Coherent w.snapshot.lists w.image ∧
      r.1 = .ok (.list longer) ∧ InStep .initial r.2 ∧ Coherent r.2.snapshot.lists r.2.image := by
  intro list longer w r
  have hw : Coherent w.snapshot.lists w.image :=
    .single (List.nodup_singleton _) (by decide +kernel)
  have hok : r.1 = .ok (.list longer) := by decide +kernel
  have hcompatible : (Call.createList longer).Compatible w.snapshot.lists w.image := by
    refine ⟨by decide +kernel, ?_⟩
    intro id stored hstored
    obtain ⟨other, hother, hitem, rfl⟩ := (hw.storedItems _ _).1 hstored
    rw [show w.snapshot.lists = [list] from rfl, List.mem_singleton] at hother
    subst hother
    rw [show list.items = [_] from rfl, List.mem_singleton] at hitem
    subst hitem
    decide +kernel
  have hrun : r = (.ok (.list longer), r.2) := by rw [← hok]
  obtain ⟨hiff, hcoherent⟩ := inStep_perform_iff .initial _ rfl w hw [] hrun
  exact ⟨rfl, hw, hok, hiff.2 hcompatible, hcoherent hcompatible⟩

/--
A list is created again under its id, with another item. Storage keeps the item that it had, and
when everything is read it is back.
-/
theorem createList_bringsBack_stored :
    let list := (Checklist.create "a" "One" .epoch).withItems [Item.create "i" "Tea" "a" .epoch]
    let other := list.withItems [Item.create "j" "Milk" "a" .epoch]
    let w := holding [list] (Image.empty.writeAll list.saves)
    let r := ((faulty .initial).perform (.createList other)).run (w.facing [])
    let read := (faulty .initial).loadAll.run (r.2.facing [])
    Coherent w.snapshot.lists w.image ∧ r.1 = .ok (.list other) ∧ read.1.isOk = true ∧
      ¬ SameLists r.2.snapshot.lists read.2.snapshot.lists := by
  intro list other w r read
  have himage : r.2.image = w.image.writeAll ((Call.createList other).writes w.snapshot.lists) := by
    decide +kernel
  obtain ⟨s, w', hread, hloaded⟩ := exists_load .initial r.2
  rw [show read = (.ok s, w') from hread, hloaded, himage]
  refine ⟨.single (List.nodup_singleton _) (by decide +kernel), by decide +kernel, rfl, ?_⟩
  intro hsame
  obtain ⟨found, hfound, _, hitem⟩ := Call.exists_loaded_createList w.snapshot.lists
    (show w.image.items.get? "i" = some (Item.create "i" "Tea" "a" .epoch) by decide +kernel)
    (show _ = other.id by decide +kernel) (by decide +kernel)
  obtain ⟨shown, hshown, _, hitems⟩ := hsame.exists_perm hfound
  have hgone : ∀ list ∈ r.2.snapshot.lists, Item.create "i" "Tea" "a" .epoch ∉ list.items := by
    decide +kernel
  exact hgone shown hshown (hitems.mem_iff.2 hitem)

end Keeper
end ListKeeper
