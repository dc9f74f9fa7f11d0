import ListKeeper.Proofs.Keeper.Recording
import ListKeeper.Proofs.Keeper.Integrity
import ListKeeper.Proofs.Simulation.Join
import ListKeeper.Proofs.Sort
import ListKeeper.Storage.DataFile
import Mathlib.Data.List.Perm.Basic

/-!
This module contains what a load of all lists shows. The content of storage determines it: all lists
and their items, each in the order of their creation. When anything could not be read, nothing is
shown of what was read. The items of the lists are read side by side, in any order.
-/

namespace ListKeeper

theorem eq_of_pairwise_of_mem_iff {lt : α → α → Prop} (hlt : ∀ a b, lt a b → ¬ lt b a)
    {as bs : List α} (has : as.Pairwise lt) (hbs : bs.Pairwise lt) (h : ∀ a, a ∈ as ↔ a ∈ bs) :
    as = bs := by
  have hnodup {cs : List α} (hcs : cs.Pairwise lt) : cs.Nodup := by
    apply hcs.imp
    rintro a b hab rfl
    exact hlt a a hab hab
  have hperm : as.Perm bs := (List.perm_ext_iff_of_nodup (hnodup has) (hnodup hbs)).2 h
  apply hperm.eq_of_pairwise _ has hbs
  intro a b _ _ hab hba
  exact absurd hba (hlt a b hab)

def CreatedEarlier (at₁ : Timestamp) (id₁ : String) (at₂ : Timestamp) (id₂ : String) : Prop :=
  at₁.rank < at₂.rank ∨ at₁.rank = at₂.rank ∧ id₁ < id₂

theorem CreatedEarlier.asymm {at₁ at₂ : Timestamp} {id₁ id₂ : String}
    (h : CreatedEarlier at₁ id₁ at₂ id₂) : ¬ CreatedEarlier at₂ id₂ at₁ id₁ := by
  rintro (hlt | ⟨heq, hid⟩)
  · rcases h with hlt' | ⟨heq', _⟩ <;> omega
  · rcases h with hlt' | ⟨_, hid'⟩
    · omega
    · exact String.lt_asymm hid hid'

section CreatedBefore

variable {timeOf : α → Timestamp} {idOf : α → String} {as : List α}

theorem createdBefore_trans (a b c : α)
    (hab : createdBefore (timeOf a) (idOf a) (timeOf b) (idOf b) = true)
    (hbc : createdBefore (timeOf b) (idOf b) (timeOf c) (idOf c) = true) :
    createdBefore (timeOf a) (idOf a) (timeOf c) (idOf c) = true := by
  simp only [createdBefore, Bool.or_eq_true, Bool.and_eq_true, decide_eq_true_eq, beq_iff_eq]
    at hab hbc ⊢
  rcases hab with hlt | ⟨heq, hid⟩
  · rcases hbc with hlt' | ⟨heq', _⟩ <;> omega
  · rcases hbc with hlt' | ⟨heq', hid'⟩
    · omega
    · exact .inr ⟨heq.trans heq', String.le_trans hid hid'⟩

theorem createdBefore_total (a b : α) :
    (createdBefore (timeOf a) (idOf a) (timeOf b) (idOf b) ||
      createdBefore (timeOf b) (idOf b) (timeOf a) (idOf a)) = true := by
  simp only [createdBefore, Bool.or_eq_true, Bool.and_eq_true, decide_eq_true_eq, beq_iff_eq]
  rcases Int.lt_trichotomy (timeOf a).rank (timeOf b).rank with hlt | heq | hgt
  · exact .inl (.inl hlt)
  · rcases String.le_total (idOf a) (idOf b) with hid | hid
    · exact .inl (.inr ⟨heq, hid⟩)
    · exact .inr (.inr ⟨heq.symm, hid⟩)
  · exact .inr (.inl hgt)

theorem pairwise_mergeSort_createdBefore (hids : (as.map idOf).Nodup) :
    (as.mergeSort fun a b => createdBefore (timeOf a) (idOf a) (timeOf b) (idOf b)).Pairwise
      fun a b => CreatedEarlier (timeOf a) (idOf a) (timeOf b) (idOf b) := by
  apply (pairwise_mergeSort_stable createdBefore_trans createdBefore_total
    (List.pairwise_map.1 hids)).imp
  rintro a b ⟨hab, hne⟩
  simp only [createdBefore, Bool.or_eq_true, Bool.and_eq_true, decide_eq_true_eq, beq_iff_eq]
    at hab hne
  rcases hab with hlt | ⟨heq, hid⟩
  · exact .inl hlt
  · refine .inr ⟨heq, ?_⟩
    by_contra hge
    have hge := String.not_lt.1 hge
    exact hne (.inr ⟨heq.symm, hge⟩) (String.le_antisymm hid hge)

end CreatedBefore

namespace Image

inductive Reachable : Image → Prop
  | empty : Reachable .empty
  | serve {image : Image} (h : Reachable image) (request : Request α) :
    Reachable (image.serve request).2

structure Plain (image : Image) : Prop extends Keyed image where
  withoutItems : ∀ id list, image.lists.get? id = some list → list.withoutItems = list

theorem Plain.serve {image : Image} (h : image.Plain) (request : Request α) :
    (image.serve request).2.Plain := by
  refine ⟨h.toKeyed.serve request, ?_⟩
  cases request with
  | saveList list =>
    intro id stored hstored
    simp only [Image.serve, putList, Index.get?_insert] at hstored
    split at hstored
    · cases hstored
      rfl
    · exact h.withoutItems id stored hstored
  | deleteList id =>
    intro k stored hstored
    simp only [Image.serve, removeList, Index.get?_erase] at hstored
    split at hstored
    · cases hstored
    · exact h.withoutItems k stored hstored
  | clear =>
    intro id stored hstored
    simp [Image.serve, Image.empty] at hstored
  | _ => exact h.withoutItems

theorem Reachable.plain {image : Image} (h : image.Reachable) : image.Plain := by
  induction h with
  | empty => exact ⟨.empty, nofun⟩
  | serve _ request ih => exact ih.serve request

/--
All stored lists, each of them once and with all stored items that name it, in the order of their
creation.
-/
structure Canonical (image : Image) (lists : List Checklist) : Prop where
  ordered : lists.Pairwise fun a b => CreatedEarlier a.createdAt a.id b.createdAt b.id
  stored : ∀ list, (∃ shown ∈ lists, shown.withoutItems = list) ↔
    image.lists.get? list.id = some list
  itemsOrdered : ∀ list ∈ lists,
    list.items.Pairwise fun a b => CreatedEarlier a.createdAt a.id b.createdAt b.id
  items : ∀ list ∈ lists, ∀ item,
    item ∈ list.items ↔ image.items.get? item.id = some item ∧ item.listId = list.id

variable {image image' : Image} {lists lists' : List Checklist}

theorem Canonical.congr (h : image.Canonical lists)
    (hlists : ∀ id, image'.lists.get? id = image.lists.get? id)
    (hitems : ∀ id, image'.items.get? id = image.items.get? id) : image'.Canonical lists := by
  refine ⟨h.ordered, ?_, h.itemsOrdered, ?_⟩
  · intro list
    rw [hlists]
    exact h.stored list
  · intro list hlist item
    rw [hitems]
    exact h.items list hlist item

theorem Canonical.mem (h : image.Canonical lists) (h' : image.Canonical lists')
    {list : Checklist} (hlist : list ∈ lists) : list ∈ lists' := by
  obtain ⟨list', hlist', hsame⟩ :=
    (h'.stored list.withoutItems).2 ((h.stored list.withoutItems).1 ⟨list, hlist, rfl⟩)
  have hid : list'.id = list.id := congrArg (·.id) hsame
  have hitems : list'.items = list.items := by
    apply eq_of_pairwise_of_mem_iff (fun _ _ => CreatedEarlier.asymm)
      (h'.itemsOrdered list' hlist') (h.itemsOrdered list hlist)
    intro item
    rw [h'.items list' hlist', h.items list hlist, hid]
  have heq : list' = list := by
    obtain ⟨⟩ := list
    obtain ⟨⟩ := list'
    simp only [Checklist.withoutItems, Checklist.mk.injEq] at hsame hitems ⊢
    simp_all
  rw [← heq]
  exact hlist'

theorem Canonical.unique (h : image.Canonical lists) (h' : image.Canonical lists') :
    lists = lists' := by
  apply eq_of_pairwise_of_mem_iff (fun _ _ => CreatedEarlier.asymm) h.ordered h'.ordered
  intro list
  exact ⟨h.mem h', h'.mem h⟩

def answers (image : Image) : List (Except Error Answer) :=
  .ok (.lists image.allLists) ::
    image.allLists.map fun list => .ok (.items (image.itemsOf list.id))

theorem error_notMem_answers (image : Image) (e : Error) : .error e ∉ image.answers := by
  unfold answers
  simp

theorem Plain.canonical_loaded (h : image.Plain) : image.Canonical image.loaded where
  ordered := by
    unfold loaded
    rw [List.pairwise_map]
    exact pairwise_mergeSort_createdBefore (Index.nodup_values _ h.lists)
  stored := by
    intro list
    constructor
    · rintro ⟨shown, hshown, rfl⟩
      obtain ⟨stored, hstored, rfl⟩ := List.mem_map.1 hshown
      obtain ⟨id, hid⟩ := (image.mem_allLists stored).1 hstored
      have hplain : (stored.withItems (image.itemsOf stored.id)).withoutItems = stored :=
        h.withoutItems id stored hid
      rw [hplain, h.lists id stored hid]
      exact hid
    · intro hid
      refine ⟨list.withItems (image.itemsOf list.id), ?_, h.withoutItems list.id list hid⟩
      exact List.mem_map_of_mem ((image.mem_allLists list).2 ⟨list.id, hid⟩)
  itemsOrdered := by
    intro list hlist
    obtain ⟨stored, _, rfl⟩ := List.mem_map.1 hlist
    apply pairwise_mergeSort_createdBefore
    exact (List.filter_sublist.map _).nodup (Index.nodup_values _ h.items)
  items := by
    intro list hlist item
    obtain ⟨stored, _, rfl⟩ := List.mem_map.1 hlist
    show item ∈ image.itemsOf stored.id ↔ _ ∧ item.listId = stored.id
    rw [image.mem_itemsOf stored.id item, and_comm]
    apply and_congr_left
    intro _
    constructor
    · rintro ⟨id, hid⟩
      rw [h.items id item hid]
      exact hid
    · intro hid
      exact ⟨item.id, hid⟩

end Image

/--
Storage that answers questions from its content or fails. A question leaves the content as it is.
-/
structure Gateway.Reads (g : Gateway σ) (content : σ → Image) : Prop where
  keeps : ∀ {α : Type} (request : Request α), request.isWrite = false → ∀ s,
    content ((g.ask request).run s).2 = content s
  answer : ∀ {α : Type} (request : Request α), request.isWrite = false → ∀ s a,
    ((g.ask request).run s).1 = .ok a → a = ((content s).serve request).1

theorem Image.serve_of_isWrite {request : Request α} (h : request.isWrite = false) (image : Image) :
    (image.serve request).2 = image := by
  cases request <;> first | rfl | contradiction

theorem FaultyStore.reads_gateway : FaultyStore.gateway.Reads FaultyStore.image where
  keeps := by
    intro α request hquestion s
    show (s.answer request).2.image = s.image
    unfold answer
    split <;> simp only [Image.serve_of_isWrite hquestion]
  answer := by
    intro α request _ s a h
    exact (answer_of_ok (Prod.ext h rfl)).1

theorem DataFile.reads_gateway : DataFile.gateway.Reads fun s => s.1.image where
  keeps := by
    intro α request hquestion s
    show (s.1.serve s.2 request).2.1.image = s.1.image
    unfold serve
    rw [hquestion]
    rfl
  answer := by
    intro α request hquestion s a h
    have hserve : (s.1.serve s.2 request).1 = .ok a := h
    unfold serve at hserve
    rw [hquestion] at hserve
    exact (Except.ok.inj hserve).symm

def Act.told : Act ω Checklist → List (Except Error Answer)
  | .done (.ok list) => [.ok (.items list.items)]
  | .done (.error e) => [.error e]
  | _ => []

structure World.Asked (content : σ → Image) (heard : List (Except Error Answer))
    (w w' : World (Recorded σ)) : Prop extends Untouched w w' where
  heard : w'.heard = w.heard ++ heard
  content : content w'.storage.storage = content w.storage.storage

theorem World.Asked.refl (content : σ → Image) (w : World (Recorded σ)) : Asked content [] w w :=
  ⟨.refl w, (List.append_nil _).symm, rfl⟩

theorem World.Asked.trans {content : σ → Image} {heard heard' : List (Except Error Answer)}
    {w w' w'' : World (Recorded σ)} (h : Asked content heard w w')
    (h' : Asked content heard' w' w'') : Asked content (heard ++ heard') w w'' := by
  refine ⟨h.toUntouched.trans h'.toUntouched, ?_, h'.content.trans h.content⟩
  rw [h'.heard, h.heard, List.append_assoc]

namespace Keeper

/--
A keeper over storage whose answers are written down, which runs actions side by side.
-/
structure Records (k : Keeper (Recorded σ)) (g : Gateway σ) : Prop where
  ask : ∀ {α : Type} (request : Request α), k.ask request = g.recording.within.ask request
  together : Act.JoinsAll k.gateway.together

theorem records_recording (config : KeeperConfig) (g : Gateway σ) :
    (recording config g).Records g where
  ask := fun _ => rfl
  together := Act.joinsAll_inTurn

def recordingInPasses (config : KeeperConfig) (g : Gateway σ) : Keeper (Recorded σ) :=
  ⟨config, { g.recording.within with together := fun ms => Act.inPasses Roster.turnLimit ms }⟩

theorem records_recordingInPasses (config : KeeperConfig) (g : Gateway σ) :
    (recordingInPasses config g).Records g where
  ask := fun _ => rfl
  together := Act.joinsAll_inPasses (Roster.turnLimit - 1)

def fetchItems (k : Keeper σ) (list : Checklist) : Act (World σ) Checklist := do
  return list.withItems (← k.ask (.itemsOf list.id))

def Fetching (k : Keeper σ) (image : Image) (list : Checklist) (m : Act (World σ) Checklist) :
    Prop :=
  m = k.fetchItems list ∨ m = .done (.ok (list.withItems (image.itemsOf list.id))) ∨
    ∃ e, m = .done (.error e)

section Joining

variable {k : Keeper (Recorded σ)} {g : Gateway σ} {content : σ → Image} {image : Image}

theorem asked_ask (hk : k.Records g) (hg : g.Reads content) (request : Request α)
    (hquestion : request.isWrite = false) (w : World (Recorded σ)) :
    w.Asked content [((k.ask request).run w).1.map request.answer] ((k.ask request).run w).2 ∧
    ∀ a, ((k.ask request).run w).1 = .ok a → a = ((content w.storage.storage).serve request).1 := by
  have hrun : (k.ask request).run w = _ :=
    (congrArg (Act.run · w) (hk.ask request)).trans (Act.run_ofStorage _ w)
  rw [hrun]
  exact ⟨⟨⟨rfl, rfl, rfl⟩, rfl, hg.keeps request hquestion _⟩, hg.answer request hquestion _⟩

theorem fetchItems_eq (hk : k.Records g) (list : Checklist) :
    k.fetchItems list = .step (fun w => ((k.ask (.itemsOf list.id)).run w).2) fun w =>
      .done (((k.ask (.itemsOf list.id)).run w).1.map list.withItems) := by
  unfold fetchItems
  rw [hk.ask]
  apply congrArg (Act.step _)
  funext w
  show Act.continueWith (.done (((g.ask (.itemsOf list.id)).run w.storage.storage).1)) _ =
    .done (((g.ask (.itemsOf list.id)).run w.storage.storage).1.map list.withItems)
  cases ((g.ask (.itemsOf list.id)).run w.storage.storage).1 with
  | error e => rfl
  | ok items => rfl

theorem told_fetchItems (hk : k.Records g) (list : Checklist) : (k.fetchItems list).told = [] := by
  rw [fetchItems_eq hk]
  rfl

theorem fetching_answered (hk : k.Records g) (hg : g.Reads content) (list : Checklist)
    {w : World (Recorded σ)} (himage : content w.storage.storage = image) :
    Fetching k image list (.done (((k.ask (.itemsOf list.id)).run w).1.map list.withItems)) := by
  have hanswer := (asked_ask hk hg (.itemsOf list.id) rfl w).2
  cases hresult : ((k.ask (.itemsOf list.id)).run w).1 with
  | error e => exact .inr (.inr ⟨e, rfl⟩)
  | ok items =>
    have hitems : items = image.itemsOf list.id := by
      rw [← himage]
      exact hanswer items hresult
    rw [hitems]
    exact .inr (.inl rfl)

theorem told_answered (k : Keeper (Recorded σ)) (list : Checklist) (w : World (Recorded σ)) :
    (Act.done (((k.ask (.itemsOf list.id)).run w).1.map list.withItems) :
      Act (World (Recorded σ)) Checklist).told =
      [((k.ask (.itemsOf list.id)).run w).1.map (Request.itemsOf list.id).answer] := by
  cases ((k.ask (.itemsOf list.id)).run w).1 with
  | error e => rfl
  | ok items => rfl

theorem forall₂_replace {r : α → β → Prop} {as : List α} {before after : List β} {b : β}
    (h : List.Forall₂ r as (before ++ b :: after)) :
    ∃ a, r a b ∧ ∀ b', r a b' → List.Forall₂ r as (before ++ b' :: after) := by
  induction before generalizing as with
  | nil =>
    obtain ⟨⟩ | ⟨hab, hrest⟩ := h
    exact ⟨_, hab, fun b' hb' => .cons hb' hrest⟩
  | cons first before ih =>
    obtain ⟨⟩ | ⟨hfirst, hrest⟩ := h
    obtain ⟨a, hab, hreplace⟩ := ih hrest
    exact ⟨a, hab, fun b' hb' => .cons hfirst (hreplace b' hb')⟩

theorem told_replace (before after : List (Act ω Checklist)) {m m' : Act ω Checklist}
    {r : Except Error Answer} (hm : m.told = []) (hm' : m'.told = [r])
    (heard : List (Except Error Answer)) :
    ((before ++ m :: after).flatMap Act.told ++ ([r] ++ heard)).Perm
      ((before ++ m' :: after).flatMap Act.told ++ heard) := by
  simp only [List.flatMap_append, List.flatMap_cons, hm, hm', List.append_assoc, List.nil_append]
  apply List.Perm.append_left
  rw [← List.append_assoc, ← List.append_assoc]
  exact List.perm_append_comm.append_right heard

theorem told_done_map {as : List Checklist} :
    (as.map fun a => (Act.done (.ok a) : Act ω Checklist)).flatMap Act.told =
      as.map fun list => .ok (.items list.items) := by
  rw [List.flatMap_map, List.map_eq_flatMap]
  rfl

/--
However the readings of the items go on, storage is asked nothing else. They come to the lists with
the stored items, or to a failure that storage told.
-/
theorem joins_fetching (hk : k.Records g) (hg : g.Reads content)
    {ms : List (Act (World (Recorded σ)) Checklist)} {w w' : World (Recorded σ)}
    {r : Except Error (List Checklist)} (h : Act.Joins ms w r w') {lists : List Checklist}
    (hms : List.Forall₂ (Fetching k image) lists ms) (himage : content w.storage.storage = image) :
    ∃ heard, w.Asked content heard w' ∧
      (∀ as, r = .ok as → as = lists.map (fun list => list.withItems (image.itemsOf list.id)) ∧
        (ms.flatMap Act.told ++ heard).Perm (as.map fun list => .ok (.items list.items))) ∧
      (∀ e, r = .error e → .error e ∈ ms.flatMap Act.told ++ heard) := by
  induction h with
  | finished as w =>
    refine ⟨[], .refl content w, ?_, nofun⟩
    rintro _ ⟨⟩
    rw [List.forall₂_map_right_iff] at hms
    constructor
    · symm
      rw [← List.forall₂_eq_eq_eq, List.forall₂_map_left_iff]
      apply hms.imp
      rintro list a (hwait | hread | ⟨e, hfail⟩)
      · rw [fetchItems_eq hk] at hwait
        contradiction
      · cases hread
        rfl
      · cases hfail
    · rw [List.append_nil, told_done_map]
  | fail before after e w =>
    refine ⟨[], .refl content w, nofun, ?_⟩
    rintro _ ⟨⟩
    rw [List.append_nil, List.mem_flatMap]
    exact ⟨_, List.mem_append_right _ List.mem_cons_self, List.mem_cons_self⟩
  | @step before after change next w w' r h ih =>
    obtain ⟨list, hfetching, hreplace⟩ := forall₂_replace hms
    have hwait : Act.step change next = k.fetchItems list := by
      rcases hfetching with hwait | hread | ⟨e, hfail⟩
      · exact hwait
      · contradiction
      · contradiction
    rw [fetchItems_eq hk] at hwait
    cases hwait
    obtain ⟨hasked, _⟩ := asked_ask hk hg (.itemsOf list.id) rfl w
    obtain ⟨heard, hrest, hok, hfail⟩ := ih (hreplace _ (fetching_answered hk hg list himage))
      (hasked.content.trans himage)
    -- The answer that this step hears is what the reading has told when it is over.
    have hperm :=
      told_replace before after (told_fetchItems hk list) (told_answered k list w) heard
    rw [fetchItems_eq hk] at hperm
    refine ⟨_, hasked.trans hrest, ?_, ?_⟩
    · intro as has
      exact ⟨(hok as has).1, hperm.trans (hok as has).2⟩
    · intro e he
      exact hperm.mem_iff.2 (hfail e he)

theorem prompt_fetchItems (hk : k.Records g) (list : Checklist) : (k.fetchItems list).Prompt := by
  rw [fetchItems_eq hk]
  exact fun _ => trivial

theorem fetches_fetchAll (hk : k.Records g) (hg : g.Reads content) {w : World (Recorded σ)}
    (himage : content w.storage.storage = image) :
    ∃ heard, w.Asked content heard (k.fetchAll.run w).2 ∧
      (∀ lists, (k.fetchAll.run w).1 = .ok lists →
        lists = image.loaded ∧ heard.Perm image.answers) ∧
      (∀ e, (k.fetchAll.run w).1 = .error e → .error e ∈ heard) := by
  obtain ⟨hasked, hanswer⟩ := asked_ask hk hg .allLists rfl w
  have hrun : k.fetchAll.run w = ((k.ask .allLists) >>= fun lists =>
    k.gateway.together (lists.map k.fetchItems)).run w := rfl
  rw [hrun, Act.run_bind]
  rcases hlists : (k.ask .allLists).run w with ⟨e | lists, w₁⟩
  · rw [hlists] at hasked
    refine ⟨_, hasked, nofun, ?_⟩
    rintro _ ⟨⟩
    exact List.mem_cons_self
  · rw [hlists] at hasked hanswer
    rw [himage] at hanswer
    have hall : lists = image.allLists := hanswer lists rfl
    have hjoins := hk.together (lists.map k.fetchItems) (List.forall_mem_map.2 fun list _ =>
      prompt_fetchItems hk list) w₁
    have htold : (lists.map k.fetchItems).flatMap Act.told = [] := by
      rw [List.flatMap_map, List.flatMap_eq_nil_iff]
      exact fun list _ => told_fetchItems hk list
    have hbegun : List.Forall₂ (Fetching k image) lists (lists.map k.fetchItems) :=
      List.forall₂_map_right_iff.2 (List.forall₂_same.2 fun list _ => .inl rfl)
    obtain ⟨heard, hrest, hok, hfail⟩ :=
      joins_fetching hk hg hjoins hbegun (hasked.content.trans himage)
    rw [htold, List.nil_append] at hok hfail
    refine ⟨_, hasked.trans hrest, ?_, ?_⟩
    · intro as has
      obtain ⟨hload, hperm⟩ := hok as has
      rw [hall] at hload
      refine ⟨hload, ?_⟩
      rw [hload, List.map_map] at hperm
      unfold Image.answers
      rw [← hall] at hperm ⊢
      exact hperm.cons _
    · intro e he
      exact List.mem_cons_of_mem _ (hfail e he)

end Joining

/--
What a load shows, by what storage answered while it went on. The two states are those before and
after it.
-/
structure LoadsAll (image : Image) (heard : List (Except Error Answer)) (w w' : World σ)
    (result : Except Error Snapshot) : Prop where
  published : ∃ loading : Snapshot, loading.lists = w.snapshot.lists ∧
    w'.published = w.published ++ [loading, w'.snapshot]
  loaded : (∀ e, .error e ∉ heard) → result = .ok w'.snapshot ∧ heard.Perm image.answers ∧
    image.Canonical w'.snapshot.lists
  determined : (∀ e, .error e ∉ heard) → ∀ image' : Image,
    (∀ id, image'.lists.get? id = image.lists.get? id) →
    (∀ id, image'.items.get? id = image.items.get? id) →
    ∀ lists, image'.Canonical lists → lists = w'.snapshot.lists
  refused : ∀ e, .error e ∈ heard → w'.snapshot.lists = w.snapshot.lists ∧
    ∃ e', .error e' ∈ heard ∧ result = .error e'

theorem loadsAll_of_loaded {image : Image} (himage : image.Plain)
    {heard : List (Except Error Answer)} (hheard : heard.Perm image.answers) {w w' : World σ}
    (hpublished : w'.published = w.published ++ [(reading w).snapshot, w'.snapshot])
    (hlists : w'.snapshot.lists = image.loaded) :
    LoadsAll image heard w w' (.ok w'.snapshot) where
  published := ⟨(reading w).snapshot, rfl, hpublished⟩
  loaded := by
    intro _
    rw [hlists]
    exact ⟨rfl, hheard, himage.canonical_loaded⟩
  determined := by
    intro _ image' hlists' hitems' lists hcanonical
    rw [hlists]
    exact (hcanonical.congr (fun id => (hlists' id).symm) fun id => (hitems' id).symm).unique
      himage.canonical_loaded
  refused := by
    intro e he
    exact absurd (hheard.mem_iff.1 he) (image.error_notMem_answers e)

theorem loadsAll_of_refused {image : Image} {heard : List (Except Error Answer)} {e : Error}
    (he : .error e ∈ heard) {w w' : World σ}
    (hpublished : w'.published = w.published ++ [(reading w).snapshot, w'.snapshot])
    (hlists : w'.snapshot.lists = w.snapshot.lists) :
    LoadsAll image heard w w' (.error e) where
  published := ⟨(reading w).snapshot, rfl, hpublished⟩
  loaded := fun hall => absurd he (hall e)
  determined := fun hall => absurd he (hall e)
  refused := fun _ _ => ⟨hlists, e, he, rfl⟩

theorem ends_loadAll_of_fetchAll {k : Keeper σ} {w : World σ} {ok : Snapshot → World σ → Prop}
    {fail q : Error → World σ → Prop} {p : List Checklist → World σ → Prop}
    (hfetch : k.fetchAll.Ends (reading w) p q)
    (hok : ∀ lists w', p lists w' →
      let shown := w'.publish fun d => { d with lists := lists, loading := false, error := none }
      ok shown.snapshot (shown.notice (.listsLoaded lists.length shown.snapshot.version)))
    (hfail : ∀ e w', q e w' →
      fail e ((w'.observe (.reported "ListsOrchestrator::load_all" e)).publish fun d =>
        { d with loading := false, error := some e.userMessage })) :
    k.loadAll.Ends w ok fail := by
  unfold loadAll
  apply Act.Ends.bind (p := fun _ w' => w' = w.observe (.entered ⟨"orchestrator.load_all", []⟩))
  · rfl
  rintro _ _ rfl
  apply Act.Ends.bind (p := fun _ w' => w' = reading w)
  · rfl
  rintro _ _ rfl
  apply Act.Ends.bindOutcome hfetch
  · exact hok
  · exact hfail

theorem published_reading (w : World σ) :
    (reading w).published = w.published ++ [(reading w).snapshot] := by
  unfold reading
  rw [World.published_publish, World.published_observe]
  exact congrArg (· ++ _) (List.append_nil _)

section Results

variable {k : Keeper (Recorded σ)} {g : Gateway σ} {content : σ → Image}

/--
All lists that storage holds are shown, in the one order there is for them, unless anything could
not be read. Then nothing of what was read is shown.
-/
theorem loadAll_canonical (hk : k.Records g) (hg : g.Reads content) (w : World (Recorded σ))
    (hw : (content w.storage.storage).Reachable) :
    ∃ heard, (k.loadAll.run w).2.heard = w.heard ++ heard ∧
      content (k.loadAll.run w).2.storage.storage = content w.storage.storage ∧
      LoadsAll (content w.storage.storage) heard w (k.loadAll.run w).2 (k.loadAll.run w).1 := by
  obtain ⟨heard, hasked, hfetched, hrefused⟩ := fetches_fetchAll hk hg (w := reading w) rfl
  have hpublished : (k.fetchAll.run (reading w)).2.published =
      w.published ++ [(reading w).snapshot] := hasked.published.trans (published_reading w)
  have hends : k.loadAll.Ends w
      (fun s w' => w'.heard = w.heard ++ heard ∧
        content w'.storage.storage = content w.storage.storage ∧
        LoadsAll (content w.storage.storage) heard w w' (.ok s))
      (fun e w' => w'.heard = w.heard ++ heard ∧
        content w'.storage.storage = content w.storage.storage ∧
        LoadsAll (content w.storage.storage) heard w w' (.error e)) := by
    apply ends_loadAll_of_fetchAll (Act.ends_run _ _)
    · intro lists w' hrun
      rw [hrun] at hasked hfetched hpublished
      obtain ⟨hlists, hheard⟩ := hfetched lists rfl
      refine ⟨hasked.heard, hasked.content, ?_⟩
      apply loadsAll_of_loaded hw.plain hheard
      · rw [World.published_notice, World.published_publish, hpublished, List.append_assoc]
        rfl
      · exact hlists
    · intro e w' hrun
      rw [hrun] at hasked hrefused hpublished
      refine ⟨hasked.heard, hasked.content, ?_⟩
      apply loadsAll_of_refused (hrefused e rfl)
      · rw [World.published_publish, World.published_observe, hpublished]
        simp [Event.snapshot?]
      · have hsame : w'.snapshot = (reading w).snapshot := hasked.snapshot
        exact congrArg (·.lists) hsame
  refine ⟨heard, ?_⟩
  rcases hrun : k.loadAll.run w with ⟨e | s, w'⟩
  · exact hends.of_error hrun
  · exact hends.of_ok hrun

end Results

/--
A data file holds a list with an item, and an item of a list that is not stored. All that can be
shown is shown. When the items of the list cannot be read, the lists stay as they are.
-/
theorem loadAll_canonical_orphan :
    let tea := Checklist.create "a" "Tea" .epoch
    let milk := Item.create "i" "Milk" "a" .epoch
    let image := (((Image.empty.serve (.saveItem (.create "j" "Salt" "b" .epoch))).2.serve
      (.saveList tea)).2.serve (.saveItem milk)).2
    let busy := Error.persistence "get_items_by_list" "busy"
    let k := recordingInPasses .initial DataFile.gateway
    let w : World (Recorded (DataFile × Disk)) :=
      World.initial .epoch ⟨(⟨"a.json", image⟩, ⟨[], []⟩), []⟩
    let k' := recording .initial FaultyStore.gateway
    let w' := (World.initial .epoch (Recorded.mk ⟨image, [.served, .refused busy]⟩ [])).publish
      fun d => { d with lists := [.create "c" "Trip" .epoch] }
    k.Records DataFile.gateway ∧ DataFile.gateway.Reads (·.1.image) ∧
      k'.Records FaultyStore.gateway ∧ FaultyStore.gateway.Reads FaultyStore.image ∧
      image.Reachable ∧
      (∃ heard, (k.loadAll.run w).2.heard = [] ++ heard ∧
        LoadsAll image heard w (k.loadAll.run w).2 (k.loadAll.run w).1) ∧
      (k.loadAll.run w).2.snapshot.lists = [tea.withItems [milk]] ∧
      (∃ heard, (k'.loadAll.run w').2.heard = [] ++ heard ∧
        LoadsAll image heard w' (k'.loadAll.run w').2 (k'.loadAll.run w').1) ∧
      (k'.loadAll.run w').2.heard = [.ok (.lists [tea]), .error busy] ∧
      (k'.loadAll.run w').2.snapshot.lists = [.create "c" "Trip" .epoch] := by
  intro tea milk image busy k w k' w'
  have hk : k.Records DataFile.gateway := records_recordingInPasses _ _
  have hk' : k'.Records FaultyStore.gateway := records_recording _ _
  have himage : image.Reachable := ((Image.Reachable.empty.serve _).serve _).serve _
  obtain ⟨heard, hheard, _, hloads⟩ := loadAll_canonical hk DataFile.reads_gateway w himage
  obtain ⟨heard', hheard', _, hloads'⟩ := loadAll_canonical hk' FaultyStore.reads_gateway w' himage
  exact ⟨hk, DataFile.reads_gateway, hk', FaultyStore.reads_gateway, himage,
    ⟨heard, hheard, hloads⟩, by decide +kernel,
    ⟨heard', hheard', hloads'⟩, by decide +kernel⟩

end Keeper
end ListKeeper
