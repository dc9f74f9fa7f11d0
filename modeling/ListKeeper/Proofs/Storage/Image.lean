import ListKeeper.Proofs.Index
import ListKeeper.Storage.Image

/-!
This module contains what runs of calls make of the content of storage, and when such a run takes
the content back to what it was before.
-/

namespace ListKeeper

namespace Image

variable {image whole : Image}

theorem ext_get? {image' : Image} (hlists : ∀ k, image.lists.get? k = image'.lists.get? k)
    (hitems : ∀ k, image.items.get? k = image'.items.get? k) : image = image' := by
  obtain ⟨lists, items⟩ := image
  obtain ⟨lists', items'⟩ := image'
  have h : lists = lists' := Index.ext_get? hlists
  have h' : items = items' := Index.ext_get? hitems
  rw [h, h']

def write (image : Image) (change : Write) : Image :=
  (image.serve change.request).2

def writeAll (image : Image) (writes : List Write) : Image :=
  writes.foldl write image

@[simp]
theorem writeAll_nil (image : Image) : image.writeAll [] = image := rfl

@[simp]
theorem writeAll_cons (image : Image) (change : Write) (rest : List Write) :
    image.writeAll (change :: rest) = (image.write change).writeAll rest := rfl

theorem writeAll_append (image : Image) (writes writes' : List Write) :
    image.writeAll (writes ++ writes') = (image.writeAll writes).writeAll writes' :=
  List.foldl_append

section Find

variable (image) (k : String)

@[simp, grind =]
theorem lists_saveList (list : Checklist) :
    (image.write (.saveList list)).lists.get? k =
      if k = list.id then some list.withoutItems else image.lists.get? k :=
  Index.get?_insert _ _ _ _

@[simp, grind =]
theorem items_saveList (list : Checklist) :
    (image.write (.saveList list)).items.get? k = image.items.get? k := rfl

@[simp, grind =]
theorem lists_saveItem (item : Item) :
    (image.write (.saveItem item)).lists.get? k = image.lists.get? k := rfl

@[simp, grind =]
theorem items_saveItem (item : Item) :
    (image.write (.saveItem item)).items.get? k =
      if k = item.id then some item else image.items.get? k :=
  Index.get?_insert _ _ _ _

@[simp, grind =]
theorem lists_deleteList (id : String) :
    (image.write (.deleteList id)).lists.get? k = if k = id then none else image.lists.get? k :=
  Index.get?_erase _ _ _

@[simp, grind =]
theorem items_deleteList (id : String) :
    (image.write (.deleteList id)).items.get? k = (image.items.get? k).filter (·.listId != id) :=
  Index.get?_filter _ _ _

@[simp, grind =]
theorem lists_deleteItem (id : String) :
    (image.write (.deleteItem id)).lists.get? k = image.lists.get? k := rfl

@[simp, grind =]
theorem items_deleteItem (id : String) :
    (image.write (.deleteItem id)).items.get? k = if k = id then none else image.items.get? k :=
  Index.get?_erase _ _ _

@[simp, grind =]
theorem lists_clear : (image.write .clear).lists.get? k = none := rfl

@[simp, grind =]
theorem items_clear : (image.write .clear).items.get? k = none := rfl

end Find

section Runs

variable (image) (k : String)

theorem lists_saveItems (items : List Item) :
    (image.writeAll (items.map .saveItem)).lists.get? k = image.lists.get? k := by
  induction items generalizing image with
  | nil => rfl
  | cons item rest ih =>
    rw [List.map_cons, writeAll_cons, ih, lists_saveItem]

theorem items_saveItems_of_notMem {items : List Item} (h : k ∉ items.map (·.id)) :
    (image.writeAll (items.map .saveItem)).items.get? k = image.items.get? k := by
  induction items generalizing image with
  | nil => rfl
  | cons item rest ih =>
    rw [List.map_cons, List.mem_cons, not_or] at h
    rw [List.map_cons, writeAll_cons, ih _ h.2, items_saveItem, if_neg h.1]

theorem items_saveItems_of_mem {items : List Item} (hnodup : (items.map (·.id)).Nodup)
    {item : Item} (h : item ∈ items) :
    (image.writeAll (items.map .saveItem)).items.get? item.id = some item := by
  induction items generalizing image with
  | nil => simp at h
  | cons first rest ih =>
    rw [List.map_cons, List.nodup_cons] at hnodup
    rw [List.map_cons, writeAll_cons]
    rcases List.mem_cons.1 h with heq | hmem
    · subst heq
      rw [items_saveItems_of_notMem _ _ hnodup.1, items_saveItem, if_pos rfl]
    · exact ih _ hnodup.2 hmem

theorem items_saveItems_of_mem_ids {items : List Item} (h : k ∈ items.map (·.id)) :
    ∃ item ∈ items, (image.writeAll (items.map .saveItem)).items.get? k = some item := by
  induction items generalizing image with
  | nil => simp at h
  | cons first rest ih =>
    rw [List.map_cons, writeAll_cons]
    -- The last one with the id is the one that is found.
    by_cases hrest : k ∈ rest.map (·.id)
    · obtain ⟨item, hitem, hfound⟩ := ih _ hrest
      exact ⟨item, List.mem_cons_of_mem _ hitem, hfound⟩
    · rw [List.map_cons, List.mem_cons] at h
      refine ⟨first, List.mem_cons_self, ?_⟩
      rw [items_saveItems_of_notMem _ _ hrest, items_saveItem, if_pos (h.resolve_right hrest)]

theorem lists_deleteItems (ids : List String) :
    (image.writeAll (ids.map .deleteItem)).lists.get? k = image.lists.get? k := by
  induction ids generalizing image with
  | nil => rfl
  | cons id rest ih =>
    rw [List.map_cons, writeAll_cons, ih, lists_deleteItem]

theorem items_deleteItems (ids : List String) :
    (image.writeAll (ids.map .deleteItem)).items.get? k =
      if k ∈ ids then none else image.items.get? k := by
  induction ids generalizing image with
  | nil => simp
  | cons id rest ih =>
    rw [List.map_cons, writeAll_cons, ih, items_deleteItem]
    by_cases hk : k = id
    · simp [hk]
    · simp [hk]

end Runs

section Undo

theorem writeAll_deleteItems_saveItems (items : List Item)
    (hfresh : ∀ item ∈ items, image.items.get? item.id = none) :
    (image.writeAll (items.map .saveItem)).writeAll ((items.map (·.id)).map .deleteItem) =
      image := by
  apply ext_get?
  · intro k
    rw [lists_deleteItems, lists_saveItems]
  · intro k
    rw [items_deleteItems]
    split
    · next h =>
      obtain ⟨item, hitem, rfl⟩ := List.mem_map.1 h
      exact (hfresh item hitem).symm
    · next h => exact items_saveItems_of_notMem _ _ h

def StoresInto (image : Image) (id : String) : Write → Prop
  | .saveList list => list.id = id
  | .saveItem item =>
    item.listId = id ∧ ∀ former, image.items.get? item.id = some former → former.listId = id
  | _ => False

theorem storesInto_moveTo {item : Item} (id : String) (h : image.items.get? item.id = none) :
    image.StoresInto id (.saveItem (item.moveTo id)) := by
  refine ⟨rfl, ?_⟩
  intro former hformer
  rw [show image.items.get? (item.moveTo id).id = none from h] at hformer
  contradiction

theorem StoresInto.write {id : String} {change other : Write}
    (hother : image.StoresInto id other) (h : image.StoresInto id change) :
    (image.write other).StoresInto id change := by
  cases change with
  | saveList list => exact h
  | saveItem item =>
    refine ⟨h.1, ?_⟩
    intro former hformer
    cases other with
    | saveList _ => exact h.2 former hformer
    | saveItem _ =>
      rw [items_saveItem] at hformer
      split at hformer
      · injection hformer with heq
        rw [← heq]
        exact hother.1
      · exact h.2 former hformer
    | _ => exact hother.elim
  | _ => exact h.elim

theorem StoresInto.write_deleteList {id : String} {change : Write}
    (h : image.StoresInto id change) :
    (image.write change).write (.deleteList id) = image.write (.deleteList id) := by
  apply ext_get?
  · intro k
    cases change with
    | saveList list =>
      have hid : list.id = id := h
      grind
    | saveItem item => grind
    | _ => exact h.elim
  · intro k
    cases change with
    | saveList list => grind
    | saveItem item =>
      obtain ⟨hid, hformer⟩ : item.listId = id ∧ _ := h
      rw [items_deleteList, items_deleteList, items_saveItem]
      split
      · next hk =>
        rw [hk]
        cases hfound : image.items.get? item.id with
        | none => simp [hid]
        | some former =>
          have hformerId := hformer former hfound
          rw [Option.filter_some, Option.filter_some]
          simp [hid, hformerId]
      · rfl
    | _ => exact h.elim

theorem write_deleteList_of_absent {id : String} (hlist : image.lists.get? id = none)
    (hitems : ∀ k item, image.items.get? k = some item → item.listId ≠ id) :
    image.write (.deleteList id) = image := by
  apply ext_get?
  · intro k
    rw [lists_deleteList]
    split
    · next hk => rw [hk, hlist]
    · rfl
  · intro k
    rw [items_deleteList]
    cases hk : image.items.get? k with
    | none => rfl
    | some item => simp [hitems k item hk]

theorem write_deleteList_writeAll {id : String} {writes : List Write}
    (hwrites : ∀ change ∈ writes, image.StoresInto id change) :
    (image.writeAll writes).write (.deleteList id) = image.write (.deleteList id) := by
  induction writes generalizing image with
  | nil => rfl
  | cons change rest ih =>
    have hfirst : image.StoresInto id change := hwrites change (by simp)
    rw [writeAll_cons, ih, hfirst.write_deleteList]
    intro other hother
    exact hfirst.write (hwrites other (by simp [hother]))

end Undo

section Restore

structure Part (image whole : Image) : Prop where
  lists : ∀ k list, image.lists.get? k = some list → whole.lists.get? k = some list
  items : ∀ k item, image.items.get? k = some item → whole.items.get? k = some item

theorem Part.refl (image : Image) : image.Part image :=
  ⟨fun _ _ h => h, fun _ _ h => h⟩

theorem Part.antisymm (h : image.Part whole) (h' : whole.Part image) : image = whole := by
  apply ext_get?
  · intro k
    apply Option.ext
    intro list
    exact ⟨h.lists k list, h'.lists k list⟩
  · intro k
    apply Option.ext
    intro item
    exact ⟨h.items k item, h'.items k item⟩

def Holds (image : Image) : Write → Prop
  | .saveList list => image.lists.get? list.id = some list.withoutItems
  | .saveItem item => image.items.get? item.id = some item
  | _ => False

theorem Part.holds (h : image.Part whole) {change : Write} (hchange : image.Holds change) :
    whole.Holds change := by
  cases change with
  | saveList list => exact h.lists _ _ hchange
  | saveItem item => exact h.items _ _ hchange
  | _ => exact hchange.elim

theorem Part.write (h : image.Part whole) {change : Write} (hchange : whole.Holds change) :
    (image.write change).Part whole ∧ image.Part (image.write change) ∧
      (image.write change).Holds change := by
  cases change with
  | saveList list =>
    have hlist : whole.lists.get? list.id = some list.withoutItems := hchange
    refine ⟨⟨?_, h.items⟩, ⟨?_, fun _ _ h => h⟩, ?_⟩
    · intro k stored hstored
      rw [lists_saveList] at hstored
      split at hstored
      · next hk => rw [hk, hlist, hstored]
      · exact h.lists k stored hstored
    · intro k stored hstored
      rw [lists_saveList]
      split
      · next hk => rw [← hlist, ← hk, h.lists k stored hstored]
      · exact hstored
    · exact (lists_saveList _ _ _).trans (if_pos rfl)
  | saveItem item =>
    have hitem : whole.items.get? item.id = some item := hchange
    refine ⟨⟨h.lists, ?_⟩, ⟨fun _ _ h => h, ?_⟩, ?_⟩
    · intro k stored hstored
      rw [items_saveItem] at hstored
      split at hstored
      · next hk => rw [hk, hitem, hstored]
      · exact h.items k stored hstored
    · intro k stored hstored
      rw [items_saveItem]
      split
      · next hk => rw [← hitem, ← hk, h.items k stored hstored]
      · exact hstored
    · exact (items_saveItem _ _ _).trans (if_pos rfl)
  | _ => exact hchange.elim

theorem Part.writeAll (h : image.Part whole) {writes : List Write}
    (hwrites : ∀ change ∈ writes, whole.Holds change) :
    (image.writeAll writes).Part whole ∧ image.Part (image.writeAll writes) ∧
      ∀ change ∈ writes, (image.writeAll writes).Holds change := by
  induction writes generalizing image with
  | nil => exact ⟨h, .refl image, by simp⟩
  | cons change rest ih =>
    obtain ⟨hpart, hgrows, hholds⟩ := h.write (hwrites change (by simp))
    obtain ⟨hpart', hgrows', hholds'⟩ := ih hpart fun other hother =>
      hwrites other (by simp [hother])
    rw [writeAll_cons]
    refine ⟨hpart', ?_, ?_⟩
    · exact ⟨fun k list hk => hgrows'.lists k list (hgrows.lists k list hk),
        fun k item hk => hgrows'.items k item (hgrows.items k item hk)⟩
    · intro other hother
      rcases List.mem_cons.1 hother with heq | hmem
      · rw [heq]
        exact hgrows'.holds hholds
      · exact hholds' other hmem

theorem Part.writeAll_eq (h : image.Part whole) {writes : List Write}
    (hwrites : ∀ change ∈ writes, whole.Holds change)
    (hlists : ∀ k stored, whole.lists.get? k = some stored → image.lists.get? k = some stored ∨
      ∃ list, .saveList list ∈ writes ∧ list.id = k ∧ list.withoutItems = stored)
    (hitems : ∀ k stored, whole.items.get? k = some stored → image.items.get? k = some stored ∨
      .saveItem stored ∈ writes ∧ stored.id = k) :
    image.writeAll writes = whole := by
  obtain ⟨hpart, hgrows, hholds⟩ := h.writeAll hwrites
  apply hpart.antisymm
  constructor
  · intro k stored hstored
    rcases hlists k stored hstored with hkept | ⟨list, hmem, rfl, rfl⟩
    · exact hgrows.lists k stored hkept
    · exact hholds _ hmem
  · intro k stored hstored
    rcases hitems k stored hstored with hkept | ⟨hmem, rfl⟩
    · exact hgrows.items k stored hkept
    · exact hholds _ hmem

theorem writeAll_of_holds {writes : List Write} (hwrites : ∀ change ∈ writes, image.Holds change) :
    image.writeAll writes = image :=
  (Part.refl image).writeAll_eq hwrites (fun _ _ h => .inl h) (fun _ _ h => .inl h)

theorem part_deleteList (id : String) : (image.write (.deleteList id)).Part image := by
  constructor
  · intro k list hlist
    rw [lists_deleteList] at hlist
    split at hlist
    · contradiction
    · exact hlist
  · intro k item hitem
    rw [items_deleteList, Option.filter_eq_some_iff] at hitem
    exact hitem.1

theorem part_clear : (image.write .clear).Part image := by
  constructor
  · intro k list hlist
    rw [lists_clear] at hlist
    contradiction
  · intro k item hitem
    rw [items_clear] at hitem
    contradiction

end Restore

section Overwrite

theorem write_saveList_saveList {list former : Checklist} (hid : list.id = former.id)
    (hformer : image.Holds (.saveList former)) :
    (image.write (.saveList list)).write (.saveList former) = image := by
  have hstored : image.lists.get? former.id = some former.withoutItems := hformer
  apply ext_get?
  · intro k
    grind
  · intro k
    grind

theorem write_saveItem_saveItem {item former : Item} (hid : item.id = former.id)
    (hformer : image.Holds (.saveItem former)) :
    (image.write (.saveItem item)).write (.saveItem former) = image := by
  have hstored : image.items.get? former.id = some former := hformer
  apply ext_get?
  · intro k
    grind
  · intro k
    grind

theorem write_deleteItem_saveItem {former : Item} (hformer : image.Holds (.saveItem former)) :
    (image.write (.deleteItem former.id)).write (.saveItem former) = image := by
  have hstored : image.items.get? former.id = some former := hformer
  apply ext_get?
  · intro k
    grind
  · intro k
    grind

theorem write_deleteItem_of_absent {id : String} (h : image.items.get? id = none) :
    image.write (.deleteItem id) = image := by
  apply ext_get?
  · intro k
    grind
  · intro k
    grind

end Overwrite

section Read

theorem verify_createList {id : String} {list : Checklist}
    (h : image.lists.get? id = some list) : image.verify .createList id = true := by
  simp [verify, Change.targetsList, Change.expectsPresence, Index.contains, h]

theorem verify_createItem {id : String} {item : Item} (h : image.items.get? id = some item) :
    image.verify .createItem id = true := by
  simp [verify, Change.targetsList, Change.expectsPresence, Index.contains, h]

def loaded (image : Image) : List Checklist :=
  image.allLists.map fun list => list.withItems (image.itemsOf list.id)

theorem mem_allLists (list : Checklist) :
    list ∈ image.allLists ↔ ∃ k, image.lists.get? k = some list := by
  unfold allLists
  rw [List.mem_mergeSort, Index.mem_values]

theorem mem_itemsOf (listId : String) (item : Item) :
    item ∈ image.itemsOf listId ↔ item.listId = listId ∧ ∃ k, image.items.get? k = some item := by
  unfold itemsOf
  rw [List.mem_mergeSort, List.mem_filter, Index.mem_values]
  simp [and_comm]

end Read
end Image
end ListKeeper
