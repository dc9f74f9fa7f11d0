import ListKeeper.Proofs.Keeper.Coherence

/-!
This module contains when storage is as before after a call that has failed. What undoes a call acts
by id, so it has to be known that nothing was stored under the ids of new lists and items, and that
lists and items to be updated are there to be stored again. Where this is not so, there is always a
call of storage whose refusal leaves storage changed.
-/

namespace ListKeeper

theorem mem_dropLast_iff {a : α} {as : List α} :
    a ∈ as.dropLast ↔ ∃ n < as.length, a ∈ as.take n := by
  rw [List.dropLast_eq_take]
  constructor
  · intro h
    have hpos : 0 < as.length := List.length_pos_of_mem (List.mem_of_mem_take h)
    exact ⟨as.length - 1, by omega, h⟩
  · rintro ⟨n, hn, h⟩
    exact List.take_subset_take_left as (by omega) h

namespace Call

def Recoverable (config : KeeperConfig) (lists : List Checklist) (image : Image) : Call → Prop
  | .createList list =>
    image.lists.get? list.id = none ∧
      ∀ item ∈ (if config.verifyWrites then list.items else list.items.dropLast),
        image.items.get? item.id = none
  | .updateList list => ∃ former ∈ lists, former.id = list.id
  | .addItem listId item =>
    (∃ parent ∈ lists, parent.id = listId) → image.items.get? item.id = none
  | .updateItem listId item =>
    ∀ parent ∈ lists, parent.id = listId → ∃ former ∈ parent.items, former.id = item.id
  | .addItems listId items =>
    (∃ parent ∈ lists, parent.id = listId) →
      ∀ item ∈ items.dropLast, image.items.get? item.id = none
  | _ => True

def Recovers (config : KeeperConfig) (call : Call) (lists : List Checklist) (image : Image) :
    Prop :=
  ∀ n < (call.steps config lists).length,
    (image.writeAll ((call.writes lists).take n)).writeAll (call.undoing n lists) = image

variable {config : KeeperConfig} {call : Call} {lists : List Checklist} {image : Image}

theorem Undoable.recovers (h : call.Undoable lists image) : call.Recovers config lists image := by
  intro n hn
  rw [← undoing_length config hn fun _ _ _ => rfl]
  exact h _ (List.take_prefix _ _)

theorem recovers_of_none (h : call.writes lists = []) : call.Recovers config lists image := by
  intro n hn
  rw [steps_eq_nil config h] at hn
  exact absurd hn (Nat.not_lt_zero n)

theorem find?_eq_none_of_missing {id : String} (h : ¬ ∃ list ∈ lists, list.id = id) :
    lists.find? (·.id == id) = none := by
  rw [List.find?_eq_none]
  intro list hlist hid
  exact h ⟨list, hlist, beq_iff_eq.1 hid⟩

section CreateList

variable {list : Checklist}

theorem length_steps_createList :
    ((Call.createList list).steps config lists).length =
      list.items.length + (if config.verifyWrites then 1 else 0) + 1 := by
  have hverified : (Call.createList list).isVerified = true := rfl
  rw [steps_of_verified config hverified (List.cons_ne_nil _ _), List.length_append,
    List.length_map]
  simp only [writes, Checklist.saves, List.length_cons, List.length_map]
  split
  · rfl
  · rfl

theorem take_writes_createList (n : Nat) :
    ((Call.createList list).writes lists).take (n + 1) =
      .saveList (list.withItems (list.items.map (·.moveTo list.id))) ::
        ((list.items.take n).map (·.moveTo list.id)).map .saveItem := by
  rw [List.map_take, List.map_take]
  rfl

theorem mem_storedFirst_iff {item : Item} {items : List Item} :
    item ∈ (if config.verifyWrites then items else items.dropLast) ↔
      ∃ n < items.length + (if config.verifyWrites then 1 else 0), item ∈ items.take n := by
  split
  · constructor
    · intro h
      exact ⟨items.length, Nat.lt_succ_self _, by rw [List.take_length]; exact h⟩
    · rintro ⟨n, _, h⟩
      exact List.mem_of_mem_take h
  · exact mem_dropLast_iff

theorem items_createList_undone {n : Nat} {item : Item} (hitem : item ∈ list.items.take n) :
    ((image.writeAll (((Call.createList list).writes lists).take (n + 1))).write
      (.deleteList list.id)).items.get? item.id = none := by
  have hid : item.id ∈ ((list.items.take n).map (·.moveTo list.id)).map (·.id) := by
    rw [map_id_moveTo]
    exact List.mem_map_of_mem hitem
  rw [take_writes_createList, Image.writeAll_cons, Image.items_deleteList]
  obtain ⟨stored, hstored, hfound⟩ := Image.items_saveItems_of_mem_ids _ _ hid
  obtain ⟨_, _, rfl⟩ := List.mem_map.1 hstored
  rw [hfound, Option.filter_some]
  exact if_neg (by simp [Item.moveTo])

theorem recovers_createList_iff (h : Coherent lists image) :
    (Call.createList list).Recovers config lists image ↔
      (Call.createList list).Recoverable config lists image := by
  constructor
  · intro hrecovers
    unfold Recovers at hrecovers
    rw [length_steps_createList] at hrecovers
    constructor
    · have himage : image.write (.deleteList list.id) = image := hrecovers 0 (Nat.succ_pos _)
      have hnone := image.lists_deleteList list.id list.id
      rw [himage, if_pos rfl] at hnone
      exact hnone
    · intro item hitem
      obtain ⟨n, hn, hmem⟩ := mem_storedFirst_iff.1 hitem
      rw [← hrecovers (n + 1) (Nat.succ_lt_succ hn)]
      exact items_createList_undone hmem
  · rintro ⟨hfresh, hitems⟩ n hn
    rw [length_steps_createList] at hn
    show (image.writeAll _).write (.deleteList list.id) = image
    rw [Image.write_deleteList_writeAll]
    · exact h.deleteList_of_absent hfresh
    · intro change hchange
      cases n with
      | zero => simp at hchange
      | succ n =>
        rw [take_writes_createList] at hchange
        rcases List.mem_cons.1 hchange with rfl | hmem
        · rfl
        · obtain ⟨moved, hmoved, rfl⟩ := List.mem_map.1 hmem
          obtain ⟨item, hitem, rfl⟩ := List.mem_map.1 hmoved
          apply Image.storesInto_moveTo
          exact hitems item (mem_storedFirst_iff.2 ⟨n, Nat.lt_of_succ_lt_succ hn, hitem⟩)

end CreateList

theorem recovers_updateList_iff {list : Checklist} (h : Coherent lists image) :
    (Call.updateList list).Recovers config lists image ↔
      (Call.updateList list).Recoverable config lists image := by
  constructor
  · intro hrecovers
    have hone : (Call.updateList list).steps config lists = [some (.saveList list)] :=
      steps_of_single config rfl rfl
    have himage : image.write (.saveList ((lists.find? (·.id == list.id)).getD list)) = image :=
      hrecovers 0 (by rw [hone]; exact Nat.one_pos)
    -- Whatever is stored again has the id of the list.
    have hid : ((lists.find? (·.id == list.id)).getD list).id = list.id := by
      cases hfind : lists.find? (·.id == list.id) with
      | none => rfl
      | some former => exact key_eq_of_find? hfind
    have hstored := image.lists_saveList list.id ((lists.find? (·.id == list.id)).getD list)
    rw [himage, if_pos hid.symm] at hstored
    obtain ⟨former, hformer, hformerId, _⟩ := (h.storedLists _ _).1 hstored
    exact ⟨former, hformer, hformerId⟩
  · intro hrecoverable
    exact (undoable_updateList h hrecoverable).recovers

theorem recovers_addItem_iff {listId : String} {item : Item} :
    (Call.addItem listId item).Recovers config lists image ↔
      (Call.addItem listId item).Recoverable config lists image := by
  constructor
  · intro hrecovers hparent
    obtain ⟨parent, hfind⟩ := find?_of_exists hparent
    have hn : 0 < ((Call.addItem listId item).steps config lists).length := by
      simp [steps, writes, hfind]
    have himage : image.write (.deleteItem item.id) = image := hrecovers 0 hn
    have hnone := image.items_deleteItem item.id item.id
    rw [himage, if_pos rfl] at hnone
    exact hnone
  · intro hrecoverable
    by_cases hparent : ∃ parent ∈ lists, parent.id = listId
    · exact (undoable_addItem (hrecoverable hparent)).recovers
    · apply recovers_of_none
      simp only [writes, find?_eq_none_of_missing hparent, Option.elim_none]

theorem recovers_updateItem_iff {listId : String} {item : Item} (h : Coherent lists image) :
    (Call.updateItem listId item).Recovers config lists image ↔
      (Call.updateItem listId item).Recoverable config lists image := by
  constructor
  · intro hrecovers parent hparent hid
    obtain ⟨found, hfind⟩ := find?_of_exists ⟨parent, hparent, hid⟩
    -- There is no other list with the id.
    have hsame : found = parent :=
      h.eq_of_listId (List.mem_of_find?_eq_some hfind) hparent
        ((key_eq_of_find? hfind).trans hid.symm)
    subst hsame
    cases hformer : found.findItem? item.id with
    | some former =>
      exact ⟨former, List.mem_of_find?_eq_some hformer, Checklist.id_of_findItem? hformer⟩
    | none =>
      have hn : 0 < ((Call.updateItem listId item).steps config lists).length := by
        simp [steps, writes, hfind]
      have himage := hrecovers 0 hn
      simp only [undoing, hfind, hformer, Option.elim_some, Option.getD_none] at himage
      -- The item is stored in the list, so it is there.
      have hstored := image.items_saveItem (item.moveTo listId).id (item.moveTo listId)
      rw [show image.write (.saveItem (item.moveTo listId)) = image from himage, if_pos rfl]
        at hstored
      exact ⟨_, h.mem_of_listId hparent hstored hid.symm, rfl⟩
  · intro hrecoverable
    exact (undoable_updateItem h hrecoverable).recovers

theorem recovers_addItems_iff {listId : String} {items : List Item} :
    (Call.addItems listId items).Recovers config lists image ↔
      (Call.addItems listId items).Recoverable config lists image := by
  by_cases hparent : ∃ parent ∈ lists, parent.id = listId
  · obtain ⟨parent, hfind⟩ := find?_of_exists hparent
    have hwrites : (Call.addItems listId items).writes lists =
        (items.map (·.moveTo listId)).map .saveItem := by
      simp only [writes, hfind, Option.elim_some]
    have hlength : ((Call.addItems listId items).steps config lists).length = items.length := by
      rw [steps_of_unverified config rfl, hwrites, List.length_map, List.length_map,
        List.length_map]
    unfold Recovers
    rw [hlength, hwrites]
    simp only [undoing, ← List.map_take]
    constructor
    · intro hrecovers _ item hitem
      obtain ⟨n, hn, hmem⟩ := mem_dropLast_iff.1 hitem
      rw [← hrecovers n hn, Image.items_deleteItems, map_id_moveTo]
      exact if_pos (List.mem_map_of_mem hmem)
    · intro hrecoverable n hn
      apply Image.writeAll_deleteItems_saveItems
      intro moved hmoved
      obtain ⟨item, hitem, rfl⟩ := List.mem_map.1 hmoved
      exact hrecoverable hparent item (mem_dropLast_iff.2 ⟨n, hn, hitem⟩)
  · constructor
    · intro _ hexists
      exact absurd hexists hparent
    · intro _
      apply recovers_of_none
      simp only [writes, find?_eq_none_of_missing hparent, Option.elim_none]

theorem recovers_iff (h : Coherent lists image) :
    call.Recovers config lists image ↔ call.Recoverable config lists image := by
  cases call with
  | createList list => exact recovers_createList_iff h
  | updateList list => exact recovers_updateList_iff h
  | deleteList id => exact iff_of_true (undoable_deleteList h).recovers trivial
  | clearAll => exact iff_of_true (undoable_clearAll h).recovers trivial
  | addItem listId item => exact recovers_addItem_iff
  | updateItem listId item => exact recovers_updateItem_iff h
  | removeItem listId itemId => exact iff_of_true (undoable_removeItem h).recovers trivial
  | addItems listId items => exact recovers_addItems_iff
  | _ => exact iff_of_true (recovers_of_none rfl) trivial

end Call

namespace Keeper

open Act World

variable {config : KeeperConfig} {call : Call} {w : World FaultyStore}

/--
Whichever calls of storage are refused, the content of storage is as before when the call has failed
and was undone.
-/
def LeavesNoTrace (config : KeeperConfig) (call : Call) (w : World FaultyStore) : Prop :=
  ∀ fates e w', (∀ c, .lost c ∉ fates) →
    ((faulty config).perform call).run (w.facing fates) = (.error e, w') → w.RollsBack w'

theorem exists_stopped (hcall : call.isMutation = true) {n : Nat}
    (hn : n < (call.steps config w.snapshot.lists).length) (c : Error) :
    ∃ e w', ((faulty config).perform call).run
        (w.facing (List.replicate n .served ++ [.refused c])) = (.error e, w') ∧
      w'.tally.compensationFailures = w.tally.compensationFailures ∧
      w'.image = (w.image.writeAll ((call.writes w.snapshot.lists).take n)).writeAll
        (call.undoing n w.snapshot.lists) := by
  have hsettles :=
    settles_perform config (w.facing (List.replicate n .served ++ [.refused c])) hcall
  have hrefused : Fate.refused c ≠ .served := Fate.noConfusion
  rcases hrun : ((faulty config).perform call).run
    (w.facing (List.replicate n .served ++ [.refused c])) with ⟨e | reply, w'⟩
  · refine ⟨e, w', hrun, ?_⟩
    cases hsettles.of_error hrun with
    | early hsteps _ _ =>
      rw [show call.steps config w.snapshot.lists = [] from hsteps] at hn
      exact absurd hn (Nat.not_lt_zero n)
    | stopped m fate rest _ hfate hfates himage hundone =>
      obtain ⟨rfl, rfl, rfl⟩ := Fate.eq_of_afterServed_replicate hrefused hfate hfates
      exact ⟨hundone rfl, himage (hundone rfl)⟩
  -- All steps would have to be served.
  · have hserved : (Fate.afterServed (call.steps config w.snapshot.lists).length
        (List.replicate n .served ++ [.refused c])).isSome = true := (hsettles.of_ok hrun).2
    rw [Fate.afterServed_replicate hrefused, if_neg (Nat.not_le.2 hn)] at hserved
    contradiction

theorem leavesNoTrace_iff_recovers (hcall : call.isMutation = true) :
    LeavesNoTrace config call w ↔ call.Recovers config w.snapshot.lists w.image := by
  constructor
  · intro htrace n hn
    obtain ⟨e, w', hrun, hundone, himage⟩ := exists_stopped hcall hn (.persistence "" "")
    rw [← himage]
    apply htrace _ e w' _ hrun hundone
    simp
  · intro hrecovers fates e w' hfates hrun hundone
    cases (settles_perform config (w.facing fates) hcall).of_error hrun with
    | early _ himage _ => exact himage
    | stopped n fate rest hn hfate hserved himage _ =>
      have hlost : (w.facing fates).storage.LosesNothing := hfates
      have hnone := hlost.effects_eq_zero (Fate.mem_of_afterServed hserved) hfate
      rw [himage hundone, hnone, Nat.add_zero]
      exact hrecovers n hn

/--
A call that changes lists leaves no trace in storage when it fails, if and only if it is
recoverable.
-/
theorem leavesNoTrace_iff (config : KeeperConfig) (call : Call) (hcall : call.isMutation = true)
    (w : World FaultyStore) (h : Coherent w.snapshot.lists w.image) :
    LeavesNoTrace config call w ↔ call.Recoverable config w.snapshot.lists w.image :=
  (leavesNoTrace_iff_recovers hcall).trans (Call.recovers_iff h)

/--
A list with an item is stored. Another list can be created without risk, but not one with the same
id.
-/
theorem leavesNoTrace_iff_oneStored :
    let list := (Checklist.create "a" "One" .epoch).withItems [Item.create "i" "Tea" "a" .epoch]
    let other := Checklist.create "b" "Two" .epoch
    let w := holding [list] (Image.empty.writeAll list.saves)
    (Call.createList other).isMutation = true ∧ (Call.createList list).isMutation = true ∧
      Coherent w.snapshot.lists w.image ∧ LeavesNoTrace .initial (.createList other) w ∧
      ¬ LeavesNoTrace .initial (.createList list) w := by
  intro list other w
  have hw : Coherent w.snapshot.lists w.image :=
    .single (List.nodup_singleton _) (by decide +kernel)
  have hother : (Call.createList other).Recoverable .initial w.snapshot.lists w.image :=
    ⟨by decide +kernel, by decide +kernel⟩
  refine ⟨rfl, rfl, hw, (leavesNoTrace_iff .initial _ rfl w hw).2 hother, ?_⟩
  intro htrace
  obtain ⟨hfresh, _⟩ := (leavesNoTrace_iff .initial (.createList list) rfl w hw).1 htrace
  exact absurd hfresh (by decide +kernel)

/--
A list is created again under its id, and storage cannot be asked whether it is there. Undoing this
removes the list and the item that were stored before, although they are still shown.
-/
theorem createList_removes_stored :
    let list := (Checklist.create "a" "One" .epoch).withItems [Item.create "i" "Tea" "a" .epoch]
    let w := holding [list] (Image.empty.writeAll list.saves)
    let e := Error.persistence "verify" "offline"
    let r := ((faulty .initial).perform (.createList list)).run
      (w.facing [.served, .served, .refused e])
    Coherent w.snapshot.lists w.image ∧ r.1 = .error e ∧
      r.2.tally.compensationFailures = w.tally.compensationFailures ∧
      r.2.snapshot.lists = w.snapshot.lists ∧ r.2.image = .empty ∧ w.image ≠ .empty := by
  intro list w e r
  exact ⟨.single (List.nodup_singleton _) (by decide +kernel), by decide +kernel,
    by decide +kernel, by decide +kernel, by decide +kernel, by decide +kernel⟩

end Keeper
end ListKeeper
