import ListKeeper.Proofs.Keeper.Atomicity
import ListKeeper.Proofs.Keeper.Status
import ListKeeper.Proofs.Storage.Fault

/-!
This module contains the integrity of what is shown: no two lists have the same id, and each item
names the list that holds it. Callers may give any ids, and storage may fail anywhere, as long as it
finds its own entries by their ids.
-/

namespace ListKeeper

/--
No two lists have the same id, and each item names the list that holds it.
-/
structure Consistent (lists : List Checklist) : Prop where
  distinct : (lists.map (·.id)).Nodup
  owned : ∀ list ∈ lists, ∀ item ∈ list.items, item.listId = list.id

namespace Consistent

variable {lists lists' : List Checklist} {list : Checklist} {f : Checklist → Checklist}
variable {id : String}

theorem nil : Consistent [] := ⟨List.nodup_nil, by simp⟩

theorem perm (h : Consistent lists) (hperm : lists.Perm lists') : Consistent lists' :=
  ⟨(hperm.map _).nodup_iff.1 h.distinct, fun list hlist => h.owned list (hperm.mem_iff.2 hlist)⟩

theorem replace {list' : Checklist} (h : Consistent (list :: lists)) (hid : list'.id = list.id)
    (howned : ∀ item ∈ list'.items, item.listId = list'.id) : Consistent (list' :: lists) := by
  constructor
  · rw [List.map_cons, hid]
    exact h.distinct
  · intro other hother
    rcases List.mem_cons.1 hother with rfl | hother
    · exact howned
    · exact h.owned other (List.mem_cons_of_mem _ hother)

theorem changeFirst (h : Consistent lists) (hid : ∀ list, list.id = id → (f list).id = id)
    (howned : ∀ list, (∀ item ∈ list.items, item.listId = id) →
      ∀ item ∈ (f list).items, item.listId = id) :
    Consistent (ListKeeper.changeFirst (·.id == id) f lists) := by
  cases hfind : lists.find? (·.id == id) with
  | none =>
    rw [changeFirst_of_any_eq_false (any_of_find?_eq_none hfind)]
    exact h
  | some list =>
    have hlist : list.id = id := key_eq_of_find? hfind
    obtain ⟨rest, hperm, _, hchange⟩ := exists_perm_of_find? hfind
    have hitems := h.owned list (List.mem_of_find?_eq_some hfind)
    rw [hlist] at hitems
    apply Consistent.perm _ (hchange f).symm
    apply (h.perm hperm).replace
    · rw [hid list hlist, hlist]
    · rw [hid list hlist]
      exact howned list hitems

theorem append (h : Consistent lists) (hnew : lists.any (·.id == list.id) = false)
    (howned : ∀ item ∈ list.items, item.listId = list.id) : Consistent (lists ++ [list]) := by
  apply Consistent.perm _ (List.perm_append_singleton list lists).symm
  constructor
  · rw [List.map_cons, List.nodup_cons]
    refine ⟨?_, h.distinct⟩
    intro hmem
    obtain ⟨other, hother, hid⟩ := List.mem_map.1 hmem
    have hsame := List.any_eq_false.1 hnew other hother
    exact hsame (beq_iff_eq.2 hid)
  · intro other hother
    rcases List.mem_cons.1 hother with rfl | hother
    · exact howned
    · exact h.owned other hother

theorem putFirst (h : Consistent lists) (howned : ∀ item ∈ list.items, item.listId = list.id) :
    Consistent (ListKeeper.putFirst (·.id == list.id) list lists) := by
  unfold ListKeeper.putFirst
  split
  · exact h.changeFirst (fun _ _ => rfl) fun _ _ => howned
  · next hnew => exact h.append (Bool.eq_false_iff.2 hnew) howned

theorem eraseP (h : Consistent lists) (p : Checklist → Bool) : Consistent (lists.eraseP p) :=
  ⟨h.distinct.sublist (List.eraseP_sublist.map _), fun list hlist =>
    h.owned list (List.eraseP_sublist.subset hlist)⟩

theorem effect (h : Consistent lists) (call : Call) : Consistent (call.effect lists) := by
  cases call with
  | createList list =>
    have howned : ∀ item ∈ (list.withItems (list.items.map (·.moveTo list.id))).items,
        item.listId = list.id := by
      intro item hitem
      obtain ⟨_, _, rfl⟩ := List.mem_map.1 hitem
      rfl
    exact h.putFirst howned
  | updateList list =>
    simp only [Call.effect]
    split
    · exact h.changeFirst (fun _ _ => rfl) fun _ howned => howned
    · next hnew =>
      have howned : ∀ item ∈ list.withoutItems.items, item.listId = list.id := by
        intro item hitem
        cases hitem
      exact h.append (Bool.eq_false_iff.2 hnew) howned
  | deleteList id => exact h.eraseP _
  | clearAll => exact nil
  | addItem listId item =>
    refine h.changeFirst (fun _ hid => hid) ?_
    intro list howned other hother
    rcases List.mem_append.1 hother with hother | hother
    · exact howned other hother
    · rw [List.mem_singleton.1 hother]
  | updateItem listId item =>
    refine h.changeFirst (fun _ hid => hid) ?_
    intro list howned other hother
    have hmem := (putFirst_perm _ _ _).mem_iff.1 hother
    rcases List.mem_cons.1 hmem with rfl | hmem
    · rfl
    · exact howned other (List.eraseP_sublist.subset hmem)
  | removeItem listId itemId =>
    refine h.changeFirst (fun _ hid => hid) ?_
    intro list howned other hother
    exact howned other (List.mem_filter.1 hother).1
  | addItems listId items =>
    refine h.changeFirst (fun _ hid => hid) ?_
    intro list howned other hother
    rcases List.mem_append.1 hother with hother | hother
    · exact howned other hother
    · obtain ⟨_, _, rfl⟩ := List.mem_map.1 hother
      rfl
  | _ => exact h

end Consistent

structure Image.Keyed (image : Image) : Prop where
  lists : ∀ id list, image.lists.get? id = some list → list.id = id
  items : ∀ id item, image.items.get? id = some item → item.id = id

namespace Image.Keyed

variable {image : Image}

theorem empty : Image.empty.Keyed := ⟨by simp [Image.empty], by simp [Image.empty]⟩

theorem serve (h : image.Keyed) (request : Request α) : (image.serve request).2.Keyed := by
  cases request with
  | saveList list =>
    refine ⟨?_, h.items⟩
    intro id stored hstored
    simp only [Image.serve, putList, Index.get?_insert] at hstored
    split at hstored
    · next hid =>
      cases hstored
      exact hid.symm
    · exact h.lists id stored hstored
  | deleteList id =>
    constructor
    · intro k stored hstored
      simp only [Image.serve, removeList, Index.get?_erase] at hstored
      split at hstored
      · cases hstored
      · exact h.lists k stored hstored
    · intro k stored hstored
      simp only [Image.serve, removeList, Index.get?_filter, Option.filter_eq_some_iff] at hstored
      exact h.items k stored hstored.1
  | saveItem item =>
    refine ⟨h.lists, ?_⟩
    intro id stored hstored
    simp only [Image.serve, putItem, Index.get?_insert] at hstored
    split at hstored
    · next hid =>
      cases hstored
      exact hid.symm
    · exact h.items id stored hstored
  | deleteItem id =>
    refine ⟨h.lists, ?_⟩
    intro k stored hstored
    simp only [Image.serve, removeItem, Index.get?_erase] at hstored
    split at hstored
    · cases hstored
    · exact h.items k stored hstored
  | clear => exact empty
  | _ => exact h

theorem consistent_loaded (h : image.Keyed) : Consistent image.loaded := by
  have hids : image.loaded.map (·.id) = image.allLists.map (·.id) := by
    unfold loaded
    rw [List.map_map]
    rfl
  constructor
  · rw [hids]
    unfold allLists
    rw [((List.mergeSort_perm _ _).map _).nodup_iff]
    exact Index.nodup_values _ h.lists
  · intro list hlist item hitem
    obtain ⟨stored, _, rfl⟩ := List.mem_map.1 hlist
    exact ((image.mem_itemsOf stored.id item).1 hitem).1

end Image.Keyed

theorem FaultyStore.keyed_answer {s : FaultyStore} (h : s.image.Keyed) (request : Request α) :
    (s.answer request).2.image.Keyed := by
  unfold answer
  split
  · exact h.serve request
  · exact h.serve request
  · exact h
  · exact h.serve request

namespace Keeper

section Storage

/-!
Calls reach storage only through its gateway, so what the gateway keeps of storage is kept by calls.
-/

variable {k : Keeper σ} {q : σ → Prop}

theorem storage_run {m : Act (World σ) α} (hm : m.Only fun w w' => q w.storage → q w'.storage)
    {w : World σ} (hw : q w.storage) : q (m.run w).2.storage :=
  hm.keeps (p := fun w => q w.storage) (fun _ _ h hw => h hw) hw

variable (hk : k.gateway.Only fun w w' => q w.storage → q w'.storage)
include hk

theorem storage_mutation {call : Call} {m : Mutation} (hm : call.mutation? = some m)
    {w : World σ} (hw : q w.storage) : q ((k.perform call).run w).2.storage := by
  have hbuilt := Act.built_only fun w w' : World σ => q w.storage → q w'.storage
  have hforth (plan : Plan) : q ((k.forward plan).run (w.observe (.entered m.span))).2.storage :=
    storage_run (all_forward hbuilt hk (Act.only_atomic fun _ h => h))
      (w := w.observe (.entered m.span)) hw
  have hproceeds := proceeds_perform (k := k) hm w
  generalize ((k.perform call).run w).1 = result at hproceeds
  generalize ((k.perform call).run w).2 = w' at hproceeds
  cases hproceeds with
  | refused hplan => exact hw
  | @committed plan made w₁ hplan hforward =>
    have hforth := hforth plan
    rw [hforward] at hforth
    rw [World.foldl_notice]
    exact hforth
  | @rolledBack plan e made outcome w₁ w₂ hplan hforward hundo =>
    have hforth := hforth plan
    rw [hforward] at hforth
    have hundoes : (k.undo plan made).Only fun w w' => q w.storage → q w'.storage :=
      all_undo hbuilt hk made fun _ _ => Act.only_atomic fun _ h => h
    have hback := storage_run hundoes (w := w₁.notice (.compensating m.operation e)) hforth
    rw [hundo] at hback
    rcases outcome with c | _
    · exact hback
    · exact hback

end Storage

end Keeper

/--
Storage finds its entries by their ids, and all that is or was shown is consistent.
-/
structure World.Intact (w : World FaultyStore) : Prop where
  keyed : w.image.Keyed
  current : Consistent w.snapshot.lists
  published : ∀ s ∈ w.published, Consistent s.lists

namespace World.Intact

variable {w w' : World FaultyStore} {lists : List Checklist}

theorem initial (now : Timestamp) {storage : FaultyStore} (h : storage.image.Keyed) :
    (World.initial now storage).Intact :=
  ⟨h, .nil, by simp [World.published, World.initial]⟩

theorem showsOnly (h : w.Intact) (hkeyed : w'.image.Keyed) (hlists : Consistent lists)
    (hshows : ShowsOnly lists w w') : w'.Intact := by
  refine ⟨hkeyed, ?_, ?_⟩
  · rw [hshows.current]
    exact hlists
  · obtain ⟨new, hnew, hsame⟩ := hshows.published
    intro s hs
    rw [hnew] at hs
    rcases List.mem_append.1 hs with hs | hs
    · exact h.published s hs
    · rw [hsame s hs]
      exact hlists

theorem commits (h : w.Intact) (hkeyed : w'.image.Keyed) (hlists : Consistent lists)
    (hcommits : Commits lists w w') : w'.Intact := by
  apply h.showsOnly hkeyed hlists
  refine ⟨⟨[w'.snapshot], hcommits.published, ?_⟩, hcommits.current⟩
  intro s hs
  rw [List.mem_singleton.1 hs, hcommits.current]

theorem publish (h : w.Intact) {edit : Draft → Draft}
    (hedit : Consistent (edit w.snapshot.draft).lists) : (w.publish edit).Intact :=
  h.showsOnly h.keyed hedit ((Untouched.refl w).publish edit)

theorem untouched (h : w.Intact) (hkeyed : w'.image.Keyed) (hw' : Untouched w w') : w'.Intact :=
  h.showsOnly hkeyed h.current hw'.showsOnly

theorem observe (h : w.Intact) {event : Event} (hevent : event.snapshot? = none) :
    (w.observe event).Intact :=
  h.untouched h.keyed ((Untouched.refl w).observe hevent)

end World.Intact

namespace Keeper

section Faulty

variable {config : KeeperConfig} {w : World FaultyStore}

theorem only_keyed_faulty (config : KeeperConfig) :
    (faulty config).gateway.Only fun w w' => w.storage.image.Keyed → w'.storage.image.Keyed where
  ask request := by
    refine ⟨fun w h => ?_, fun _ => trivial⟩
    exact FaultyStore.keyed_answer h request
  together _ hms := (Act.built_only _).inTurn hms

theorem keyed_run {m : Act (World FaultyStore) α}
    (hm : m.Only fun w w' => w.storage.image.Keyed → w'.storage.image.Keyed) (h : w.image.Keyed) :
    (m.run w).2.image.Keyed :=
  storage_run (q := fun s : FaultyStore => s.image.Keyed) hm h

theorem consistent_fetched (h : w.image.Keyed) {lists : List Checklist} {w' : World FaultyStore}
    (hfetch : (faulty config).fetchAll.run w = (.ok lists, w')) : Consistent lists := by
  have hloaded : lists = w.image.loaded := (ends_fetchAll config w).of_ok hfetch
  rw [hloaded]
  exact h.consistent_loaded

theorem consistent_shownAfterClear (h : w.Intact) {w' : World FaultyStore} {e : Error}
    {lists : List Checklist} (hlists : (faulty config).ShownAfterClear w w' e lists) :
    Consistent lists := by
  unfold ShownAfterClear at hlists
  split at hlists
  · have hkeyed : ((faulty config).beforeReload w e).image.Keyed := by
      have hk := only_keyed_faulty config
      apply keyed_run ((Act.built_only _).each (f := (faulty config).write)
        (fun change => hk.ask change.request) _)
      exact keyed_run (hk.ask .clear) (w := w.observe _) h.keyed
    rcases hfetch : (faulty config).fetchAll.run ((faulty config).beforeReload w e)
      with ⟨c | fetched, w₁⟩
    · rw [hfetch] at hlists
      cases hlists
    · rw [hfetch] at hlists
      cases hlists
      exact consistent_fetched hkeyed hfetch
  · rw [hlists]
    exact h.current

theorem intact_mutation {call : Call} (hcall : call.isMutation = true) (h : w.Intact) :
    (((faulty config).perform call).run w).2.Intact := by
  have hk : (faulty config).gateway.Discreet := Gateway.discreet_within _
  have hkeyed : (((faulty config).perform call).run w).2.image.Keyed := by
    obtain ⟨m, hm⟩ := Call.exists_mutation hcall
    exact storage_mutation (q := fun s : FaultyStore => s.image.Keyed) (only_keyed_faulty config)
      hm h.keyed
  by_cases hclear : call = .clearAll
  · subst hclear
    have hends := ends_clearAll hk w
    rcases hrun : ((faulty config).perform .clearAll).run w with ⟨e | reply, w'⟩
    · rw [hrun] at hkeyed
      obtain ⟨lists, hshows, hlists⟩ := hends.of_error hrun
      exact h.showsOnly hkeyed (consistent_shownAfterClear h hlists) hshows
    · rw [hrun] at hkeyed
      exact h.commits hkeyed .nil (hends.of_ok hrun)
  · have hatomic := ends_perform hk w hcall hclear
    rcases hrun : ((faulty config).perform call).run w with ⟨e | reply, w'⟩
    · rw [hrun] at hkeyed
      exact h.showsOnly hkeyed h.current (hatomic.of_error hrun)
    · rw [hrun] at hkeyed
      exact h.commits hkeyed (h.current.effect call) (hatomic.of_ok hrun)

theorem intact_loadAll (h : w.Intact) : (((faulty config).perform .loadAll).run w).2.Intact := by
  have hentered : (w.observe (.entered ⟨"orchestrator.load_all", []⟩)).Intact := h.observe rfl
  have hreading : (reading w).Intact := hentered.publish hentered.current
  have hkeyed := keyed_run (all_fetchAll (Act.built_only _) (only_keyed_faulty config)) hreading.keyed
  have huntouched := discreet_fetchAll (k := faulty config) (Gateway.discreet_within _) (reading w)
  have hread := hreading.untouched hkeyed huntouched
  rw [run_loadAll, Act.run_bind, Act.run_outcome]
  rcases hfetch : (faulty config).fetchAll.run (reading w) with ⟨e | lists, w₁⟩
  · rw [hfetch] at hread
    have hreported : (w₁.observe (.reported "ListsOrchestrator::load_all" e)).Intact :=
      hread.observe rfl
    exact hreported.publish hreported.current
  · rw [hfetch] at hread
    have hlists := consistent_fetched hreading.keyed hfetch
    have hshown : (w₁.publish fun d =>
        { d with lists := lists, loading := false, error := none }).Intact := hread.publish hlists
    exact hshown.observe rfl

theorem intact_perform (h : w.Intact) (call : Call) :
    (((faulty config).perform call).run w).2.Intact := by
  by_cases hcall : call.isMutation = true
  · exact intact_mutation hcall h
  · cases call with
    | loadAll => exact intact_loadAll h
    | reset => exact h.publish .nil
    | setPeriodText text =>
      simp only [perform, setPeriodText]
      split
      · exact h.publish h.current
      · split
        · exact h.publish h.current
        · exact h
    | setQuery query => exact h.publish h.current
    | setTopic topic => exact h.publish h.current
    | setShowCompleted shown => exact h.publish h.current
    | setShowInProgress shown => exact h.publish h.current
    | setPeriod period => exact h.publish h.current
    | setOrder order => exact h.publish h.current
    | resetCriteria => exact h.publish h.current
    | _ => exact absurd rfl hcall

theorem intact_run (h : w.Intact) (calls : List Call) : ((faulty config).run calls w).Intact := by
  induction calls generalizing w with
  | nil => exact h
  | cons call rest ih => exact ih (intact_perform h call)

end Faulty

/--
All snapshots of a run are consistent: the one in the end, and all that were published on the way.
-/
theorem run_consistent (config : KeeperConfig) (now : Timestamp) (storage : FaultyStore)
    (hkeyed : storage.image.Keyed) (calls : List Call) :
    let w := (faulty config).run calls (World.initial now storage)
    ∀ s ∈ w.snapshot :: w.published, Consistent s.lists := by
  intro w s hs
  have hintact : w.Intact := intact_run (.initial now hkeyed) calls
  rcases List.mem_cons.1 hs with rfl | hs
  · exact hintact.current
  · exact hintact.published s hs

/--
A list that is not shown is updated, with an item of another list. Storage takes it and says that it
failed. The list is loaded, with an item that was stored before, created again, and then removed,
which fails after it has taken effect and cannot be undone.
-/
theorem run_consistent_recreated :
    let offline := Error.persistence "save_list" "offline"
    let served := List.replicate 6 Fate.served
    let storage : FaultyStore :=
      ⟨Image.empty.putItem (Item.create "i" "Milk" "a" .epoch),
        .lost offline :: served ++ [.lost offline, .refused offline]⟩
    let tea := Checklist.create "a" "Tea" .epoch
    let calls := [.updateList (tea.withItems [Item.create "j" "Salt" "b" .epoch]), .loadAll,
      .createList (tea.withItems [Item.create "i" "Milk" "b" .epoch]), .deleteList "a",
      .addItem "a" (Item.create "j" "Salt" "b" .epoch)]
    let w := (faulty .initial).run calls (World.initial .epoch storage)
    storage.image.Keyed ∧ w.tally = ⟨2, 2, 1⟩ ∧
      w.snapshot.lists.map (fun list => (list.id, list.items.map (·.id))) = [("a", ["i", "j"])] ∧
      ∀ s ∈ w.snapshot :: w.published, Consistent s.lists := by
  intro offline served storage tea calls w
  have hkeyed : storage.image.Keyed :=
    Image.Keyed.empty.serve (.saveItem (Item.create "i" "Milk" "a" .epoch))
  exact ⟨hkeyed, by decide +kernel, by decide +kernel,
    run_consistent .initial .epoch storage hkeyed calls⟩

end Keeper
end ListKeeper
