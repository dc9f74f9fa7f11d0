import ListKeeper.Proofs.Keeper.Mutation
import ListKeeper.Proofs.View
import ListKeeper.Storage.Image

/-!
This module contains what calls do to the board, change by change: each change publishes an edit of
the draft, or leaves the board alone. What every publish keeps therefore holds however calls that
are under way at the same time take turns. In particular all snapshots show the right view.
-/

namespace ListKeeper

namespace Draft

def Tells (edit : Draft → Draft) : Prop :=
  ∀ d, (edit d).criteria = d.criteria ∧ (edit d).loading = d.loading

theorem tells_upsert (list : Checklist) : Tells (·.upsert list) := by
  intro d
  dsimp only [upsert]
  split <;> exact ⟨rfl, rfl⟩

theorem tells_insertAt (i : Nat) (list : Checklist) : Tells (·.insertAt i list) := by
  intro d
  dsimp only [insertAt]
  split <;> exact ⟨rfl, rfl⟩

theorem tells_remove (id : String) : Tells fun d => (d.remove id).2 := by
  intro d
  dsimp only [remove]
  split <;> exact ⟨rfl, rfl⟩

theorem tells_modify (id : String) (f : Checklist → Checklist) :
    Tells fun d => (d.modify id f).2 := by
  intro d
  dsimp only [modify]
  split <;> exact ⟨rfl, rfl⟩

theorem Tells.comp {edit edit' : Draft → Draft} (h : Tells edit) (h' : Tells edit') :
    Tells fun d => edit (edit' d) :=
  fun d => ⟨(h (edit' d)).1.trans (h' d).1, (h (edit' d)).2.trans (h' d).2⟩

end Draft

structure Plan.Tells (plan : Plan) : Prop where
  shown : Draft.Tells plan.shown.draft
  restored : ∀ edit, plan.restored.Publishes edit → Draft.Tells edit

theorem Showing.tells_into (listId : String) (f : Checklist → Checklist) :
    Draft.Tells (Showing.into listId f).draft := by
  intro d
  have h := Draft.tells_modify listId f d
  dsimp only [draft]
  split
  · exact h
  · exact h

def Mutation.Tells (m : Mutation) : Prop :=
  ∀ s plan, m.plan s = .ok plan → plan.Tells

namespace Mutation

theorem tells_createList (list : Checklist) : (createList list).Tells := by
  rintro s _ ⟨⟩
  exact ⟨fun d => Draft.tells_upsert _ d, nofun⟩

theorem tells_updateList (list : Checklist) : (updateList list).Tells := by
  rintro s _ ⟨⟩
  refine ⟨?_, ?_⟩
  · have hmodify := Draft.tells_modify list.id fun entry => list.withItems entry.items
    have hupsert := (Draft.tells_upsert list.withoutItems).comp hmodify
    intro d
    dsimp only [Showing.draft]
    split
    · exact hmodify d
    · exact hupsert d
  · rintro _ ⟨_⟩
    exact Draft.tells_modify _ _

theorem tells_deleteList (id : String) : (deleteList id).Tells := by
  intro s plan hplan
  dsimp only [deleteList] at hplan
  split at hplan
  · cases hplan
    refine ⟨Draft.tells_remove id, ?_⟩
    rintro _ ⟨_⟩
    exact Draft.tells_insertAt _ _
  · cases hplan

theorem tells_clearAll : clearAll.Tells := by
  rintro s _ ⟨⟩
  refine ⟨fun _ => ⟨rfl, rfl⟩, ?_⟩
  rintro _ ⟨_⟩
  exact fun _ => ⟨rfl, rfl⟩

theorem tells_addItem (listId : String) (item : Item) : (addItem listId item).Tells := by
  intro s plan hplan
  obtain ⟨_, _, ⟨⟩⟩ := Snapshot.withList_eq_ok hplan
  exact ⟨Showing.tells_into _ _, nofun⟩

theorem tells_updateItem (listId : String) (item : Item) : (updateItem listId item).Tells := by
  intro s plan hplan
  obtain ⟨_, _, ⟨⟩⟩ := Snapshot.withList_eq_ok hplan
  refine ⟨Showing.tells_into _ _, ?_⟩
  rintro _ ⟨_⟩
  exact Draft.tells_modify _ _

theorem tells_removeItem (listId itemId : String) : (removeItem listId itemId).Tells := by
  intro s plan hplan
  obtain ⟨parent, _, h⟩ := Snapshot.withList_eq_ok hplan
  split at h
  · cases h
    refine ⟨Showing.tells_into _ _, ?_⟩
    rintro _ ⟨_⟩
    exact Draft.tells_modify _ _
  · cases h

theorem tells_addItems (listId : String) (items : List Item) : (addItems listId items).Tells := by
  intro s plan hplan
  obtain ⟨_, _, ⟨⟩⟩ := Snapshot.withList_eq_ok hplan
  exact ⟨Showing.tells_into _ _, nofun⟩

end Mutation

theorem Call.tells_mutation? {call : Call} {m : Mutation} (hm : call.mutation? = some m) :
    m.Tells := by
  cases call with
  | createList list => cases hm; exact Mutation.tells_createList list
  | updateList list => cases hm; exact Mutation.tells_updateList list
  | deleteList id => cases hm; exact Mutation.tells_deleteList id
  | clearAll => cases hm; exact Mutation.tells_clearAll
  | addItem listId item => cases hm; exact Mutation.tells_addItem listId item
  | updateItem listId item => cases hm; exact Mutation.tells_updateItem listId item
  | removeItem listId itemId => cases hm; exact Mutation.tells_removeItem listId itemId
  | addItems listId items => cases hm; exact Mutation.tells_addItems listId items
  | _ => cases hm

inductive World.Publishes (allowed : (Draft → Draft) → Prop) (w w' : World σ) : Prop
  | nothing (hboard : w'.board = w.board) (hpublished : w'.published = w.published)
  | edit (edit : Draft → Draft) (hedit : allowed edit) (hboard : w'.board = w.board.publish edit)
    (hpublished : w'.published = w.published ++ [w'.snapshot])

/--
Storage that publishes nothing but allowed edits, however actions that call it are run together.
This leaves room for others to publish while a call of storage takes its time.
-/
structure Gateway.Publishes (allowed : (Draft → Draft) → Prop) (g : Gateway (World σ)) : Prop where
  ask : ∀ {α : Type} (request : Request α), (g.ask request).Only (World.Publishes allowed)
  together : ∀ {α : Type} (ms : List (Act (World σ) α)),
    (∀ m ∈ ms, m.Only (World.Publishes allowed)) → (g.together ms).Only (World.Publishes allowed)

theorem Gateway.Publishes.only {allowed : (Draft → Draft) → Prop} {g : Gateway (World σ)}
    (h : g.Publishes allowed) : g.Only (World.Publishes allowed) :=
  ⟨h.ask, h.together⟩

def Gateway.Reserved (g : Gateway (World σ)) : Prop :=
  ∀ allowed, g.Publishes allowed

theorem Gateway.reserved_within (g : Gateway σ) : g.within.Reserved := by
  intro allowed
  have honly : g.within.Only (World.Publishes allowed) := only_within fun _ _ => .nothing rfl rfl
  exact ⟨honly.ask, honly.together⟩

namespace Keeper

section Calls

variable {allowed : (Draft → Draft) → Prop}

theorem only_observe {event : Event} (h : event.snapshot? = none) :
    (Act.modify (World.observe · event) : Act (World σ) Unit).Only (World.Publishes allowed) := by
  apply Act.only_modify
  intro w
  refine .nothing rfl ?_
  rw [World.published_observe, h]
  exact List.append_nil _

theorem only_notice (n : Notice) :
    (Act.notice n : Act (World σ) Unit).Only (World.Publishes allowed) :=
  only_observe rfl

theorem only_enter (name : String) (fields : List (String × Json)) :
    (Act.enter name fields : Act (World σ) Unit).Only (World.Publishes allowed) :=
  only_observe rfl

theorem only_count (f : Tally → Tally) :
    (Act.count f : Act (World σ) Unit).Only (World.Publishes allowed) :=
  Act.only_modify fun _ => .nothing rfl rfl

theorem only_snapshot : (Act.snapshot : Act (World σ) Snapshot).Only (World.Publishes allowed) :=
  Act.only_atomic fun _ => .nothing rfl rfl

theorem only_publish {edit : Draft → Draft} (h : allowed edit) :
    (Act.publish edit : Act (World σ) Snapshot).Only (World.Publishes allowed) :=
  Act.only_atomic fun w => .edit edit h rfl (w.published_publish edit)

theorem only_show {edit : Draft → Draft} (h : allowed edit) :
    (do let _ ← Act.publish edit : Act (World σ) Unit).Only (World.Publishes allowed) :=
  (Act.built_only _).bind (only_publish h) fun _ => trivial

theorem only_settle {operation : String} {m : Act (World σ) α}
    (hallowed : ∀ edit, Draft.Tells edit → allowed edit) (hm : m.Only (World.Publishes allowed)) :
    (settle operation m).Only (World.Publishes allowed) := by
  have hbuilt := Act.built_only (World.Publishes (σ := σ) allowed)
  unfold settle reportFailure
  apply hbuilt.bind (hbuilt.outcome hm)
  rintro (e | a)
  · refine hbuilt.bind ?_ fun _ => hbuilt.fail e
    apply hbuilt.bind (only_observe rfl)
    intro _
    exact only_show (hallowed _ fun _ => ⟨rfl, rfl⟩)
  · exact hbuilt.pure _

theorem only_transactTracking {operation : String}
    {forward : Act (World σ) (Except Error α × β)} {compensation : β → Act (World σ) Unit}
    (hforward : forward.Only (World.Publishes allowed))
    (hcompensation : ∀ b, (compensation b).Only (World.Publishes allowed)) :
    (transactTracking operation forward compensation).Only (World.Publishes allowed) := by
  have hbuilt := Act.built_only (World.Publishes (σ := σ) allowed)
  unfold transactTracking compensate
  apply hbuilt.bind hforward
  rintro ⟨e | a, done⟩
  · refine hbuilt.bind ?_ fun _ => hbuilt.fail e
    apply hbuilt.bind (only_notice _)
    intro _
    apply hbuilt.bind (hbuilt.outcome (hcompensation done))
    rintro (c | _)
    · apply hbuilt.bind (only_count _)
      intro _
      exact hbuilt.bind (only_notice _) fun _ => only_count _
    · exact only_count _
  · exact hbuilt.bind (only_count _) fun _ => hbuilt.pure _

theorem only_carryOut {k : Keeper σ} (hk : k.gateway.Publishes allowed)
    (hallowed : ∀ edit, Draft.Tells edit → allowed edit) {m : Mutation} (hm : m.Tells) :
    (k.carryOut m).Only (World.Publishes allowed) := by
  have hbuilt := Act.built_only (World.Publishes (σ := σ) allowed)
  unfold carryOut
  apply hbuilt.bind (only_enter _ _)
  intro _
  apply hbuilt.bind only_snapshot
  intro s
  apply hbuilt.bind
  · apply only_settle hallowed
    rcases hplan : m.plan s with e | plan
    · exact hbuilt.fail e
    · have htells := hm s plan hplan
      apply only_transactTracking
      · apply all_forward hbuilt hk.only
        exact Act.only_atomic fun w => .edit _ (hallowed _ htells.shown) rfl (w.published_publish _)
      · intro made
        apply all_undo hbuilt hk.only
        intro edit hedit
        exact only_publish (hallowed _ (htells.restored edit hedit))
  · intro _
    apply hbuilt.bind (hbuilt.each only_notice _)
    intro _
    exact hbuilt.bind only_snapshot fun _ => hbuilt.pure _

theorem only_mutation {k : Keeper σ} (hk : k.gateway.Publishes allowed)
    (hallowed : ∀ edit, Draft.Tells edit → allowed edit) {call : Call}
    (hcall : call.isMutation = true) : (k.perform call).Only (World.Publishes allowed) := by
  obtain ⟨m, hm⟩ := Call.exists_mutation hcall
  rw [perform_eq_carryOut hm]
  exact only_carryOut hk hallowed (Call.tells_mutation? hm)

theorem only_loadAll {k : Keeper σ} (hk : k.gateway.Publishes fun _ => True) :
    k.loadAll.Only (World.Publishes fun _ => True) := by
  have hbuilt := Act.built_only (World.Publishes (σ := σ) fun _ => True)
  unfold loadAll reportFailure
  apply hbuilt.bind (only_enter _ _)
  intro _
  apply hbuilt.bind (only_publish trivial)
  intro _
  apply hbuilt.bind (hbuilt.outcome (all_fetchAll hbuilt hk.only))
  rintro (e | lists)
  · refine hbuilt.bind ?_ fun _ => hbuilt.fail e
    exact hbuilt.bind (only_observe rfl) fun _ => only_show trivial
  · apply hbuilt.bind (only_publish trivial)
    intro snapshot
    exact hbuilt.bind (only_notice _) fun _ => hbuilt.pure _

theorem only_setPeriodText (text : String) :
    (setPeriodText text).Only (World.Publishes (σ := σ) fun _ => True) := by
  unfold setPeriodText
  split
  · exact only_publish trivial
  · split
    · exact only_publish trivial
    · exact (Act.built_only _).fail _

theorem only_perform {k : Keeper σ} (hk : k.gateway.Publishes fun _ => True) (call : Call) :
    (k.perform call).Only (World.Publishes fun _ => True) := by
  have hbuilt := Act.built_only (World.Publishes (σ := σ) fun _ => True)
  by_cases hcall : call.isMutation = true
  · exact only_mutation hk (fun _ _ => trivial) hcall
  have hset (edit : Draft → Draft) :
      (do return .version (← Act.publish edit).version : Act (World σ) Reply).Only
        (World.Publishes fun _ => True) :=
    hbuilt.bind (only_publish trivial) fun _ => hbuilt.pure _
  cases call with
  | loadAll => exact hbuilt.bind (only_loadAll hk) fun _ => hbuilt.pure _
  | setPeriodText text => exact hbuilt.bind (only_setPeriodText text) fun _ => hbuilt.pure _
  | reset => exact hset _
  | setQuery query => exact hset _
  | setTopic topic => exact hset _
  | setShowCompleted shown => exact hset _
  | setShowInProgress shown => exact hset _
  | setPeriod period => exact hset _
  | setOrder order => exact hset _
  | resetCriteria => exact hset _
  | _ => exact absurd rfl hcall

end Calls

structure Desk (σ : Type) where
  world : World σ
  calls : List (Act (World σ) Reply)

namespace Desk

/--
A call begins, or one of those under way makes a change or goes on after waiting, or it is put away
because it is over or given up. Calls may take turns in any order.
-/
inductive Step (k : Keeper σ) : Desk σ → Desk σ → Prop
  | begin (d : Desk σ) (call : Call) : Step k d ⟨d.world, d.calls ++ [k.perform call]⟩
  | advance (d : Desk σ) (before after : List (Act (World σ) Reply)) (change : World σ → World σ)
    (next : World σ → Act (World σ) Reply) (h : d.calls = before ++ .step change next :: after) :
    Step k d ⟨change d.world, before ++ next d.world :: after⟩
  | resume (d : Desk σ) (before after : List (Act (World σ) Reply)) (ready : World σ → Bool)
    (giveUp : World σ → World σ) (next : Act (World σ) Reply)
    (h : d.calls = before ++ .wait ready giveUp next :: after) :
    Step k d ⟨d.world, before ++ next :: after⟩
  | putAway (d : Desk σ) (before after : List (Act (World σ) Reply)) (m : Act (World σ) Reply)
    (h : d.calls = before ++ m :: after) : Step k d ⟨m.abandon d.world, before ++ after⟩

inductive Reachable (k : Keeper σ) (start : World σ) : Desk σ → Prop
  | initial : Reachable k start ⟨start, []⟩
  | step {d d' : Desk σ} (h : Reachable k start d) (hstep : Step k d d') : Reachable k start d'

variable {k : Keeper σ} {start : World σ}

theorem Reachable.finish {w : World σ} {before after : List (Act (World σ) Reply)}
    {m : Act (World σ) Reply} (h : Reachable k start ⟨w, before ++ m :: after⟩) :
    Reachable k start ⟨(m.run w).2, before ++ after⟩ := by
  induction m generalizing w with
  | done outcome => exact h.step (.putAway _ before after (.done outcome) rfl)
  | step change next ih => exact ih w (h.step (.advance _ before after change next rfl))
  | wait ready giveUp next ih => exact ih (h.step (.resume _ before after ready giveUp next rfl))

-- Calls that follow each other are a special case.
theorem Reachable.run {w : World σ} (h : Reachable k start ⟨w, []⟩) (calls : List Call) :
    Reachable k start ⟨k.run calls w, []⟩ := by
  induction calls generalizing w with
  | nil => exact h
  | cons call rest ih =>
    have hbegun : Reachable k start ⟨w, [] ++ k.perform call :: []⟩ := h.step (.begin _ call)
    exact ih hbegun.finish

end Desk

/--
All snapshots, the current one included, show the view that their criteria ask for at the time
`now`. The versions of the published ones count them.
-/
structure AllShown (now : Timestamp) (w : World σ) : Prop where
  showsView : ∀ s ∈ w.snapshot :: w.published, s.ShowsView now
  versions : w.published.map (·.version) = List.range' 1 w.published.length
  current : w.snapshot.version = w.published.length

structure Computed (now : Timestamp) (w : World σ) : Prop where
  now_eq : w.board.now = now
  view_eq : ∀ s ∈ w.snapshot :: w.published, s.view = s.criteria.view now s.lists
  versions : w.published.map (·.version) = List.range' 1 w.published.length
  current : w.snapshot.version = w.published.length

theorem computed_initial (now : Timestamp) (storage : σ) :
    Computed now (World.initial now storage) where
  now_eq := rfl
  view_eq := by
    intro s hs
    rw [List.mem_singleton.1 hs]
    exact (List.mergeSort_nil).symm
  versions := rfl
  current := rfl

theorem Computed.publishes {allowed : (Draft → Draft) → Prop} {now : Timestamp} {w w' : World σ}
    (hw : Computed now w) (h : w.Publishes allowed w') : Computed now w' := by
  cases h with
  | nothing hboard hpublished =>
    have hsnapshot : w'.snapshot = w.snapshot := congrArg Board.snapshot hboard
    refine ⟨?_, ?_, ?_, ?_⟩
    · rw [hboard, hw.now_eq]
    · rw [hsnapshot, hpublished]
      exact hw.view_eq
    · rw [hpublished, hw.versions]
    · rw [hsnapshot, hpublished, hw.current]
  | edit edit _ hboard hpublished =>
    have hsnapshot : w'.snapshot = w.snapshot.next w.board.now (edit w.snapshot.draft) :=
      congrArg Board.snapshot hboard
    have hview : w'.snapshot.view = w'.snapshot.criteria.view now w'.snapshot.lists := by
      rw [hsnapshot, ← hw.now_eq]
      rfl
    have hversion : w'.snapshot.version = w.published.length + 1 := by
      rw [hsnapshot, ← hw.current]
      rfl
    refine ⟨?_, ?_, ?_, ?_⟩
    · rw [hboard, ← hw.now_eq]
      rfl
    · intro s hs
      rw [hpublished, List.mem_cons, List.mem_append, List.mem_singleton] at hs
      rcases hs with rfl | hs | rfl
      · exact hview
      · exact hw.view_eq s (List.mem_cons_of_mem _ hs)
      · exact hview
    · rw [hpublished, List.map_append, hw.versions, List.length_append, List.map_singleton,
        hversion, List.length_singleton, List.range'_concat, Nat.one_mul, Nat.add_comm 1]
    · rw [hpublished, List.length_append, List.length_singleton, hversion]

theorem Computed.allShown {now : Timestamp} {w : World σ} (h : Computed now w) :
    AllShown now w where
  showsView s hs := Snapshot.showsView_of_eq (h.view_eq s hs)
  versions := h.versions
  current := h.current

section Turns

variable {k : Keeper σ} {now : Timestamp} {storage : σ} {d d' : Desk σ}

theorem forall_mem_replace {p : β → Prop} {before after : List β} {b b' : β}
    (h : ∀ c ∈ before ++ b :: after, p c) (hb : p b') : ∀ c ∈ before ++ b' :: after, p c := by
  intro c hc
  rcases List.mem_append.1 hc with hc | hc
  · exact h c (List.mem_append_left _ hc)
  · rcases List.mem_cons.1 hc with rfl | hc
    · exact hb
    · exact h c (List.mem_append_right _ (List.mem_cons_of_mem _ hc))

-- What is left of a call that is under way can do no more than the call.
theorem Desk.Step.computed (hk : k.gateway.Publishes fun _ => True) (hstep : d.Step k d')
    (hworld : Computed now d.world)
    (hcalls : ∀ m ∈ d.calls, m.Only (World.Publishes fun _ => True)) :
    Computed now d'.world ∧ ∀ m ∈ d'.calls, m.Only (World.Publishes fun _ => True) := by
  cases hstep with
  | begin call =>
    refine ⟨hworld, fun m hm => ?_⟩
    rcases List.mem_append.1 hm with hm | hm
    · exact hcalls m hm
    · rw [List.mem_singleton.1 hm]
      exact only_perform hk call
  | advance before after change next h =>
    rw [h] at hcalls
    have hone : (Act.step change next).Only (World.Publishes fun _ => True) := hcalls _ (by simp)
    exact ⟨hworld.publishes (hone.1 _), forall_mem_replace hcalls (hone.2 _)⟩
  | resume before after ready giveUp next h =>
    rw [h] at hcalls
    have hone : (Act.wait ready giveUp next).Only (World.Publishes fun _ => True) :=
      hcalls _ (by simp)
    exact ⟨hworld, forall_mem_replace hcalls hone.2⟩
  | putAway before after m h =>
    rw [h] at hcalls
    have hone : m.Only (World.Publishes fun _ => True) := hcalls m (by simp)
    refine ⟨?_, fun m' hm => hcalls m' ?_⟩
    · -- Only a call that is waiting changes anything when it is given up.
      cases m with
      | wait ready giveUp next => exact hworld.publishes (hone.1 _)
      | _ => exact hworld
    · rcases List.mem_append.1 hm with hm | hm
      · exact List.mem_append_left _ hm
      · exact List.mem_append_right _ (List.mem_cons_of_mem _ hm)

theorem Desk.Reachable.computed (hk : k.gateway.Publishes fun _ => True)
    (h : d.Reachable k (World.initial now storage)) :
    Computed now d.world ∧ ∀ m ∈ d.calls, m.Only (World.Publishes fun _ => True) := by
  induction h with
  | initial => exact ⟨computed_initial now storage, fun _ hm => nomatch hm⟩
  | step _ hstep ih => exact hstep.computed hk ih.1 ih.2

end Turns

/--
Whatever calls there are, in whatever order they take turns and whatever storage does, all snapshots
show the right view, and each publish raises the version by one.
-/
theorem published_allShown (k : Keeper σ) (hk : k.gateway.Publishes fun _ => True)
    (now : Timestamp) (storage : σ) {d : Desk σ}
    (h : d.Reachable k (World.initial now storage)) : AllShown now d.world :=
  (h.computed hk).1.allShown

/--
Two lists are created at the same time: the first call has begun when the second one is made and
comes to its end. Then the order is changed.
-/
theorem published_allShown_overlapping :
    let k : Keeper Image := ⟨.initial, Image.gateway.within⟩
    let start := World.initial .epoch Image.empty
    let first := k.perform (.createList (Checklist.create "a" "Tea" .epoch))
    let second := k.perform (.createList (Checklist.create "b" "Milk" .epoch))
    let announced := Event.entered ⟨"orchestrator.create_list", [("list_id", .str "a")]⟩
    let next (w : World Image) := match first with
      | .step _ next => next w
      | m => m
    let meanwhile := (second.run (start.observe announced)).2
    let w := k.run [.setOrder .nameAsc] ((next start).run meanwhile).2
    k.gateway.Publishes (fun _ => True) ∧ Desk.Reachable k start ⟨w, []⟩ ∧
      w.published.map (·.lists.map (·.id)) = [["b"], ["b", "a"], ["b", "a"]] ∧
      AllShown .epoch w := by
  intro k start first second announced next meanwhile w
  have hk : k.gateway.Publishes fun _ => True := Gateway.reserved_within _ _
  have hbegun : Desk.Reachable k start ⟨start, [first]⟩ := Desk.Reachable.initial.step (.begin _ _)
  have hannounced := hbegun.step (.advance _ [] [] (World.observe · announced) next rfl)
  have hboth : Desk.Reachable k start ⟨start.observe announced, [next start] ++ second :: []⟩ :=
    hannounced.step (.begin _ _)
  have hfirst : Desk.Reachable k start ⟨meanwhile, [] ++ next start :: []⟩ := hboth.finish
  have hreach : Desk.Reachable k start ⟨w, []⟩ := hfirst.finish.run _
  have hshown := published_allShown k hk .epoch Image.empty hreach
  exact ⟨hk, hreach, by decide +kernel, hshown⟩

end Keeper
end ListKeeper
