import ListKeeper.Proofs.Keeper.Mutation
import ListKeeper.Storage.Image

/-!
This module contains what observers see of the calls that change lists: either one snapshot with the
whole effect of the call, or nothing but snapshots with the lists as they were. This holds for any
storage, whatever it answers and wherever it fails.
-/

namespace ListKeeper

/--
What a call that succeeds makes of the lists. Where several lists have the same id, the first
counts.
-/
def Call.effect : Call → List Checklist → List Checklist
  | .createList list, lists =>
    putFirst (·.id == list.id)
      { list with items := list.items.map fun item => { item with listId := list.id } } lists
  | .updateList list, lists =>
    if lists.any (·.id == list.id) then
      changeFirst (·.id == list.id) (fun entry => { list with items := entry.items }) lists
    else
      lists ++ [{ list with items := [] }]
  | .deleteList id, lists => lists.eraseP (·.id == id)
  | .clearAll, _ => []
  | .addItem listId item, lists =>
    changeFirst (·.id == listId)
      (fun list => { list with items := list.items ++ [{ item with listId := listId }] }) lists
  | .updateItem listId item, lists =>
    changeFirst (·.id == listId) (fun list =>
      { list with items := putFirst (·.id == item.id) { item with listId := listId } list.items })
      lists
  | .removeItem listId itemId, lists =>
    changeFirst (·.id == listId)
      (fun list => { list with items := list.items.filter (·.id != itemId) }) lists
  | .addItems listId items, lists =>
    changeFirst (·.id == listId) (fun list =>
      { list with items := list.items ++ items.map fun item => { item with listId := listId } })
      lists
  | _, lists => lists

theorem Checklist.id_of_findItem? {list : Checklist} {id : String} {item : Item}
    (h : list.findItem? id = some item) : item.id = id :=
  key_eq_of_find? h

theorem Snapshot.id_of_findList? {s : Snapshot} {id : String} {list : Checklist}
    (h : s.findList? id = some list) : list.id = id :=
  key_eq_of_find? h

theorem Snapshot.any_of_findList? {s : Snapshot} {id : String} {list : Checklist}
    (h : s.findList? id = some list) : s.lists.any (·.id == id) = true :=
  any_of_find? h

namespace Checklist

theorem replaceItem_eq (item : Item) (list : Checklist) :
    list.replaceItem item = { list with items := putFirst (·.id == item.id) item list.items } := by
  unfold replaceItem putFirst
  rw [any_eq_isSome_findIdx?]
  split
  · next i hi =>
    unfold positionOf? at hi
    rw [hi, ← set_eq_changeFirst hi]
    rfl
  · next hi =>
    unfold positionOf? at hi
    rw [hi]
    rfl

theorem resetItem_eq_self {item former : Item} {list : Checklist}
    (h : (list.findItem? item.id).getD item = former) : list.resetItem former = list := by
  have hid : former.id = item.id := by
    cases hfind : list.findItem? item.id with
    | none =>
      rw [hfind] at h
      rw [← h]
      rfl
    | some found =>
      rw [hfind] at h
      rw [← h]
      exact id_of_findItem? hfind
  unfold resetItem
  rw [hid]
  -- An item that the list does not hold has no place to be put back in.
  split
  · next i hi =>
    unfold positionOf? at hi
    rw [set_eq_changeFirst hi, changeFirst_of_fixed]
    · rfl
    · intro a ha
      rw [show list.findItem? item.id = some a from ha] at h
      exact h.symm
  · rfl

theorem reinsertItem_eq_self {index : Nat} {item : Item} {itemId : String} {list : Checklist}
    (h : list.findItem? itemId = some item) : list.reinsertItem index item = list := by
  unfold reinsertItem
  rw [id_of_findItem? h, h]
  rfl

end Checklist

/--
What a plan that was made for a snapshot publishes while the lists of the snapshot are shown: the
effect of its call, and the lists of the snapshot again when its changes are undone.
-/
structure Plan.Turns (plan : Plan) (s : Snapshot) (call : Call) : Prop where
  outcome : plan.shown.outcome s = .ok ()
  shown : (plan.shown.draft s.draft).lists = call.effect s.lists
  restored : ∀ edit, plan.restored = .edit edit → (edit s.draft).lists = s.lists
  reload : ∀ former, plan.restored = .reload former → call = .clearAll ∧ former = s.lists

def Mutation.Turns (m : Mutation) (call : Call) : Prop :=
  ∀ s plan, m.plan s = .ok plan → plan.Turns s call

namespace Showing

variable {s : Snapshot} {listId : String} {parent : Checklist}

theorem outcome_into (h : s.findList? listId = some parent) (f : Checklist → Checklist) :
    (into listId f).outcome s = .ok () := by
  have hposition : (s.positionOf? listId).isSome = true := by
    have hany := Snapshot.any_of_findList? h
    rw [any_eq_isSome_findIdx?] at hany
    exact hany
  simp only [outcome, hposition, ↓reduceIte]

theorem lists_into (h : s.findList? listId = some parent) (f : Checklist → Checklist) :
    ((into listId f).draft s.draft).lists = changeFirst (·.id == listId) f s.lists := by
  have hmodified : (s.draft.modify listId f).1 = true := by
    rw [Draft.found_modify]
    exact Snapshot.any_of_findList? h
  simp only [draft, hmodified, ↓reduceIte]
  exact Draft.lists_modify _ _ _

end Showing

namespace Mutation

variable {s : Snapshot} {listId : String} {parent : Checklist}

theorem lists_modify_eq_self {f : Checklist → Checklist} (h : s.findList? listId = some parent)
    (hf : f parent = parent) : (s.draft.modify listId f).2.lists = s.lists := by
  rw [Draft.lists_modify]
  apply changeFirst_of_fixed
  intro entry hentry
  rw [show s.findList? listId = some entry from hentry] at h
  cases h
  exact hf

theorem turns_createList (list : Checklist) :
    (createList list).Turns (Call.createList list) := by
  rintro s _ ⟨⟩
  exact ⟨rfl, Draft.lists_upsert _ _, nofun, nofun⟩

theorem turns_updateList (list : Checklist) :
    (updateList list).Turns (Call.updateList list) := by
  rintro s _ ⟨⟩
  refine ⟨rfl, ?_, ?_, nofun⟩
  · have hdraft : s.draft.lists = s.lists := rfl
    simp only [Showing.draft, Draft.found_modify, Call.effect, hdraft]
    cases hany : s.lists.any (·.id == list.id) with
    | true => exact Draft.lists_modify _ _ _
    | false =>
      simp only [Bool.false_eq_true, ↓reduceIte]
      rw [Draft.lists_upsert, Draft.lists_modify, hdraft, changeFirst_of_any_eq_false hany]
      exact putFirst_of_not_any hany
  · rintro _ ⟨⟩
    cases hfind : s.findList? list.id with
    | none =>
      -- What is not shown is not put back.
      rw [Option.getD_none, Draft.lists_modify]
      exact changeFirst_of_any_eq_false (any_of_find?_eq_none hfind)
    | some former =>
      rw [Option.getD_some]
      apply lists_modify_eq_self _ rfl
      rw [Snapshot.id_of_findList? hfind, hfind]

theorem turns_deleteList (id : String) : (deleteList id).Turns (Call.deleteList id) := by
  intro s plan hplan
  dsimp only [deleteList] at hplan
  split at hplan
  · next index former hindex hformer =>
    cases hplan
    refine ⟨rfl, Draft.lists_remove _ _, ?_, nofun⟩
    rintro _ ⟨⟩
    have hid := Snapshot.id_of_findList? hformer
    -- The list is still there, so it is put back where it is found and not inserted again.
    rw [Draft.lists_insertAt_of_any]
    · apply changeFirst_of_fixed
      intro entry hentry
      rw [hid] at hentry
      rw [show s.findList? id = some entry from hentry] at hformer
      cases hformer
      rfl
    · rw [hid]
      exact Snapshot.any_of_findList? hformer
  · cases hplan

theorem turns_clearAll : clearAll.Turns .clearAll := by
  rintro s _ ⟨⟩
  refine ⟨rfl, rfl, nofun, ?_⟩
  rintro _ ⟨⟩
  exact ⟨rfl, rfl⟩

theorem turns_addItem (listId : String) (item : Item) :
    (addItem listId item).Turns (Call.addItem listId item) := by
  intro s plan hplan
  obtain ⟨parent, hparent, ⟨⟩⟩ := Snapshot.withList_eq_ok hplan
  exact ⟨Showing.outcome_into hparent _, Showing.lists_into hparent _, nofun, nofun⟩

theorem turns_updateItem (listId : String) (item : Item) :
    (updateItem listId item).Turns (Call.updateItem listId item) := by
  intro s plan hplan
  obtain ⟨parent, hparent, ⟨⟩⟩ := Snapshot.withList_eq_ok hplan
  refine ⟨Showing.outcome_into hparent _, ?_, ?_, nofun⟩
  · rw [Showing.lists_into hparent, funext (Checklist.replaceItem_eq (item.moveTo listId))]
    rfl
  · rintro _ ⟨⟩
    exact lists_modify_eq_self hparent (Checklist.resetItem_eq_self rfl)

theorem turns_removeItem (listId itemId : String) :
    (removeItem listId itemId).Turns (Call.removeItem listId itemId) := by
  intro s plan hplan
  obtain ⟨parent, hparent, h⟩ := Snapshot.withList_eq_ok hplan
  split at h
  · next index former hindex hformer =>
    cases h
    refine ⟨Showing.outcome_into hparent _, Showing.lists_into hparent _, ?_, nofun⟩
    rintro _ ⟨⟩
    exact lists_modify_eq_self hparent (Checklist.reinsertItem_eq_self hformer)
  · cases h

theorem turns_addItems (listId : String) (items : List Item) :
    (addItems listId items).Turns (Call.addItems listId items) := by
  intro s plan hplan
  obtain ⟨parent, hparent, ⟨⟩⟩ := Snapshot.withList_eq_ok hplan
  exact ⟨Showing.outcome_into hparent _, Showing.lists_into hparent _, nofun, nofun⟩

end Mutation

theorem Call.turns_mutation? {call : Call} {m : Mutation} (hm : call.mutation? = some m) :
    m.Turns call := by
  cases call with
  | createList list => cases hm; exact Mutation.turns_createList list
  | updateList list => cases hm; exact Mutation.turns_updateList list
  | deleteList id => cases hm; exact Mutation.turns_deleteList id
  | clearAll => cases hm; exact Mutation.turns_clearAll
  | addItem listId item => cases hm; exact Mutation.turns_addItem listId item
  | updateItem listId item => cases hm; exact Mutation.turns_updateItem listId item
  | removeItem listId itemId => cases hm; exact Mutation.turns_removeItem listId itemId
  | addItems listId items => cases hm; exact Mutation.turns_addItems listId items
  | _ => cases hm

namespace Keeper

open World

def beforeReload (k : Keeper σ) (w : World σ) (e : Error) : World σ :=
  let refused := ((k.ask .clear).run (w.observe (.entered ⟨"orchestrator.clear_all", []⟩))).2
  ((Act.each k.write (w.snapshot.lists.flatMap (·.saves))).run
    (refused.notice (.compensating "clear_all" e))).2

def ShownAfterClear (k : Keeper σ) (w w' : World σ) (e : Error) (lists : List Checklist) : Prop :=
  if k.config.reloadAfterClearRollback = true ∧
      w'.tally.compensationFailures = w.tally.compensationFailures then
    (k.fetchAll.run (k.beforeReload w e)).1 = .ok lists
  else
    lists = w.snapshot.lists

section Plans

variable {k : Keeper σ} (hk : k.gateway.Discreet) {w₀ w : World σ} {plan : Plan}
variable {call : Call}
include hk

theorem discreet_fetchAll : k.fetchAll.Discreet :=
  all_fetchAll Act.built_discreet hk.all

theorem ends_forward (hw : Untouched w₀ w) (hplan : plan.Turns w₀.snapshot call) :
    (k.forward plan).Ends w
      (fun r w' => match r.1 with
        | .ok _ => Commits (call.effect w₀.snapshot.lists) w₀ w'
        | .error _ => Untouched w₀ w')
      (fun _ _ => False) := by
  obtain ⟨outcome, made, w₁, hrun⟩ := run_writeAll k plan.changes w
  have hwritten := all_writeAll Act.built_discreet hk.all plan.changes w
  rw [hrun] at hwritten
  unfold forward
  -- A plan publishes last, when nothing can fail any more.
  apply Act.Ends.bind (p := fun r w' => Untouched w₀ w')
  · unfold Act.Ends
    rw [hrun]
    exact hw.trans hwritten
  rintro ⟨e | _, made⟩ w₁ h₁
  · exact h₁
  refine Act.Ends.bindOutcome (?_ : Act.Ends _ w₁
    (fun _ w' => Commits (call.effect w₀.snapshot.lists) w₀ w')
    (fun _ w' => Untouched w₀ w')) ?_ ?_
  · apply Act.Ends.bind (p := fun _ w' => Untouched w₀ w')
    · apply ((all_verify Act.built_discreet hk.all plan.verified).ends w₁).mono
      · intro _ w₂ h₂
        exact h₁.trans h₂
      · intro _ w₂ h₂
        exact h₁.trans h₂
    · intro _ w₂ h₂
      have houtcome : plan.shown.outcome w₂.snapshot = .ok () := by
        rw [h₂.snapshot]
        exact hplan.outcome
      unfold Act.Ends publishShowing
      rw [Act.run_atomic, houtcome]
      exact h₂.commits hplan.shown
  · intro _ w₂ h₂
    exact h₂
  · intro _ w₂ h₂
    exact h₂

def Rereads (k : Keeper σ) (plan : Plan) (made : Nat) (w : World σ)
    (former lists : List Checklist) : Prop :=
  match plan.restored with
  | .reload _ =>
    ((k.reread former).run ((Act.each k.write (plan.undoing made)).run w).2).1 = .ok lists
  | _ => lists = former

theorem ends_undo (hw : Untouched w₀ w) (hplan : plan.Turns w₀.snapshot call) (made : Nat) :
    (k.undo plan made).Ends w
      (fun _ w' => ∃ lists', ShowsOnly lists' w₀ w' ∧ w'.tally = w₀.tally ∧
        k.Rereads plan made w w₀.snapshot.lists lists')
      (fun _ w' => Untouched w₀ w') := by
  have hwrites : (Act.each k.write (plan.undoing made)).Discreet :=
    Act.built_discreet.each (f := k.write) (fun change => hk.ask change.request) _
  unfold undo
  apply Act.Ends.bind (p := fun _ w' =>
    Untouched w₀ w' ∧ w' = ((Act.each k.write (plan.undoing made)).run w).2)
  · apply ((hwrites.ends w).and (Act.ends_run _ w)).mono
    · rintro _ w' ⟨h, hrun⟩
      exact ⟨hw.trans h, by rw [hrun]⟩
    · rintro _ w' ⟨h, _⟩
      exact hw.trans h
  rintro _ w₁ ⟨h₁, hw₁⟩
  unfold publishRestoring Rereads
  cases hrestored : plan.restored with
  | nothing => exact ⟨_, h₁.showsOnly, h₁.tally, rfl⟩
  | edit edit =>
    refine ⟨_, h₁.publish edit, h₁.tally, ?_⟩
    rw [h₁.snapshot]
    exact hplan.restored edit hrestored
  | reload former =>
    rw [← (hplan.reload former hrestored).2, ← hw₁]
    have hreread : (k.reread former).Discreet := by
      unfold reread
      split
      · exact discreet_fetchAll hk
      · exact Act.built_discreet.pure _
    apply Act.Ends.bind (p := fun lists' w' =>
      Untouched w₀ w' ∧ ((k.reread former).run w₁).1 = .ok lists')
    · apply ((hreread.ends w₁).and (Act.ends_run _ w₁)).mono
      · rintro lists' w' ⟨h, hrun⟩
        exact ⟨h₁.trans h, by rw [hrun]⟩
      · rintro _ w' ⟨h, _⟩
        exact h₁.trans h
    · rintro lists' w₂ ⟨h₂, hlists⟩
      exact ⟨lists', h₂.publish fun d => { d with lists := lists' }, h₂.tally, hlists⟩

/--
The lists that are shown when a call has failed with `e` and led from `w` to `w'`: those from before,
or those that its plan wanted to be read from storage, if nothing failed in undoing.
-/
def ShownAgain (k : Keeper σ) (m : Mutation) (w w' : World σ) (e : Error)
    (lists : List Checklist) : Prop :=
  lists = w.snapshot.lists ∧
      w'.tally.compensationFailures = w.tally.compensationFailures + 1 ∨
    ∃ plan made before, m.plan w.snapshot = .ok plan ∧
      (k.forward plan).run (w.observe (.entered m.span)) = (.ok (.error e, made), before) ∧
      w'.tally.compensationFailures = w.tally.compensationFailures ∧
      k.Rereads plan made (before.notice (.compensating m.operation e)) w.snapshot.lists lists

theorem ends_carryOut {m : Mutation} (hm : m.Turns call) (w : World σ) :
    (k.carryOut m).Ends w
      (fun _ w' => Commits (call.effect w.snapshot.lists) w w')
      (fun e w' => (m.plan w.snapshot = .error e ∧ ShowsOnly w.snapshot.lists w w') ∨
        ∃ shown, ShowsOnly shown w w' ∧ k.ShownAgain m w w' e shown) := by
  have hentered : Untouched w (w.observe (.entered m.span)) := (Untouched.refl w).observe rfl
  have hproceeds := proceeds_carryOut k m w
  apply (Act.ends_run _ w).mono
  · intro reply w' hrun
    simp only [hrun] at hproceeds
    cases hproceeds with
    | committed hplan hforward =>
      have hcommits := (ends_forward hk hentered (hm _ _ hplan)).of_ok hforward
      exact (Commits.counted hcommits _).notices _
  · intro e w' hrun
    simp only [hrun] at hproceeds
    cases hproceeds with
    | refused hplan => exact .inl ⟨hplan, hentered.showsOnly.reporting _ _⟩
    | @rolledBack plan _ made outcome w₁ w₂ hplan hforward hundo =>
      have hbefore : Untouched w w₁ := (ends_forward hk hentered (hm _ _ hplan)).of_ok hforward
      have hends := ends_undo hk (hbefore.notice (.compensating m.operation e)) (hm _ _ hplan) made
      rcases outcome with c | _
      · have hstuck := hends.of_error hundo
        refine .inr ⟨_, (hstuck.showsOnly.undone _ _ _).reporting _ _, .inl ⟨rfl, ?_⟩⟩
        rw [tally_reporting, compensationFailures_undone, hstuck.tally]
        rfl
      · obtain ⟨shown, hshows, htally, hrereads⟩ := hends.of_ok hundo
        refine .inr ⟨shown, (hshows.undone _ _ _).reporting _ _, .inr ?_⟩
        refine ⟨plan, made, w₁, hplan, hforward, ?_, hrereads⟩
        rw [tally_reporting, compensationFailures_undone, htally]
        rfl

end Plans

section Again

variable {k : Keeper σ} {w w' : World σ} {e : Error} {lists : List Checklist}

theorem run_forward_clear {s : Snapshot} {plan : Plan} {e : Error} {made : Nat}
    (hplan : Mutation.clearAll.plan s = .ok plan)
    (h : (k.forward plan).run w = (.ok (.error e, made), w')) :
    made = 0 ∧ w' = ((k.ask .clear).run w).2 := by
  cases hplan
  unfold forward writeAll at h
  rw [Act.run_bind, Act.run_bind, Act.run_outcome] at h
  have hwrite : k.write .clear = k.ask .clear := rfl
  rw [hwrite] at h
  rcases hclear : (k.ask .clear).run w with ⟨c | _, w₁⟩
  · rw [hclear] at h
    cases h
    exact ⟨rfl, rfl⟩
  · -- Once storage is cleared, nothing can fail.
    rw [hclear] at h
    cases h

theorem shownAfterClear (h : k.ShownAgain .clearAll w w' e lists) :
    k.ShownAfterClear w w' e lists := by
  unfold ShownAfterClear
  rcases h with ⟨hlists, hfailures⟩ | ⟨plan, made, before, hplan, hforward, hfailures, hrereads⟩
  · rw [if_neg]
    · exact hlists
    · rintro ⟨_, h⟩
      omega
  · obtain ⟨rfl, hbefore⟩ := run_forward_clear hplan hforward
    cases hplan
    subst hbefore
    have hrereads : ((k.reread w.snapshot.lists).run (k.beforeReload w e)).1 = .ok lists := hrereads
    unfold reread at hrereads
    split at hrereads
    · next hreload => rwa [if_pos ⟨hreload, hfailures⟩]
    · next hreload =>
      rw [if_neg fun h => hreload h.1]
      cases hrereads
      rfl

theorem shownAgain_eq {call : Call} {m : Mutation} (hm : m.Turns call) (hclear : call ≠ .clearAll)
    (h : k.ShownAgain m w w' e lists) : lists = w.snapshot.lists := by
  rcases h with ⟨hlists, _⟩ | ⟨plan, _, _, hplan, _, _, hrereads⟩
  · exact hlists
  · unfold Rereads at hrereads
    split at hrereads
    · next former hrestored => exact absurd ((hm _ _ hplan).reload former hrestored).1 hclear
    · exact hrereads

end Again

section Calls

variable {k : Keeper σ} (hk : k.gateway.Discreet) (w : World σ)
include hk

theorem ends_perform {call : Call} (hcall : call.isMutation = true) (hclear : call ≠ .clearAll) :
    (k.perform call).Ends w
      (fun _ w' => Commits (call.effect w.snapshot.lists) w w')
      (fun _ w' => ShowsOnly w.snapshot.lists w w') := by
  obtain ⟨m, hm⟩ := Call.exists_mutation hcall
  have hturns := Call.turns_mutation? hm
  rw [perform_eq_carryOut hm]
  apply (ends_carryOut hk hturns w).mono
  · intro _ w' h
    exact h
  · rintro e w' (⟨_, hshows⟩ | ⟨lists, hshows, hlists⟩)
    · exact hshows
    · rw [← shownAgain_eq hturns hclear hlists]
      exact hshows

theorem ends_clearAll :
    (k.perform .clearAll).Ends w
      (fun _ w' => Commits [] w w')
      (fun e w' => ∃ lists, ShowsOnly lists w w' ∧ k.ShownAfterClear w w' e lists) := by
  apply (ends_carryOut hk Mutation.turns_clearAll w).mono
  · intro _ w' h
    exact h
  · rintro e w' (⟨hplan, _⟩ | ⟨lists, hshows, hlists⟩)
    · cases hplan
    · exact ⟨lists, hshows, shownAfterClear hlists⟩

end Calls

/--
Each call that changes lists is all or nothing for observers, from any state and over any storage.
When it succeeds, exactly one snapshot is published, and it has the whole effect of the call. When
it fails, all snapshots that are published have the lists as they were; only those published by
`clearAll` may have the lists that storage gave when everything had been stored again.
-/
theorem perform_allOrNothing (k : Keeper σ) (hk : k.gateway.Discreet) (w : World σ) (call : Call)
    (hcall : call.isMutation = true) :
    (k.perform call).Ends w
      (fun _ w' => Commits (call.effect w.snapshot.lists) w w')
      (fun e w' => ∃ lists, ShowsOnly lists w w' ∧
        match call with
        | .clearAll => k.ShownAfterClear w w' e lists
        | _ => lists = w.snapshot.lists) := by
  by_cases hclear : call = .clearAll
  · subst hclear
    exact ends_clearAll hk w
  · apply (ends_perform hk w hcall hclear).mono
    · intro _ w' h
      exact h
    · intro e w' h
      refine ⟨_, h, ?_⟩
      cases call with
      | clearAll => exact absurd rfl hclear
      | _ => rfl

/--
Storage has room for a few changes only. Where there is room for two, two items are added to the
first of two lists with the same id. Where there is none, storage refuses to remove the list, and
also to store it again.
-/
theorem perform_allOrNothing_full :
    let g : Gateway (Image × Nat) := .ofFunction fun request s =>
      if s.2 = 0 then (.error (.persistence request.method "disk full"), s)
      else (.ok (s.1.serve request).1, (s.1.serve request).2, s.2 - 1)
    let k : Keeper (Image × Nat) := ⟨.initial, g.within⟩
    let milk := Item.create "i" "Milk" "a" .epoch
    let tea := Item.create "x" "Tea" "b" .epoch
    let salt := Item.create "y" "Salt" "" .epoch
    let one := (Checklist.create "a" "One" .epoch).withItems [milk]
    let two := Checklist.create "a" "Two" .epoch
    let start (room : Nat) :=
      (World.initial .epoch (Image.empty, room)).publish fun d => { d with lists := [one, two] }
    let add := Call.addItems "a" [tea, salt]
    k.gateway.Discreet ∧ add.isMutation = true ∧ (Call.deleteList "a").isMutation = true ∧
      ((k.perform add).run (start 2)).1.isOk = true ∧
      ((k.perform add).run (start 2)).2.snapshot.lists =
        [{ one with items := [milk, { tea with listId := "a" }, { salt with listId := "a" }] },
          two] ∧
      (k.perform add).Ends (start 2)
        (fun _ w' => Commits (add.effect [one, two]) (start 2) w')
        (fun _ w' => ∃ lists, ShowsOnly lists (start 2) w' ∧ lists = [one, two]) ∧
      ((k.perform (.deleteList "a")).run (start 0)).1.isOk = false ∧
      (k.perform (.deleteList "a")).Ends (start 0)
        (fun _ w' => Commits [two] (start 0) w')
        (fun _ w' => ∃ lists, ShowsOnly lists (start 0) w' ∧ lists = [one, two]) := by
  intro g k milk tea salt one two start add
  have hk : k.gateway.Discreet := Gateway.discreet_within g
  have hadd := perform_allOrNothing k hk (start 2) add rfl
  have hdelete := perform_allOrNothing k hk (start 0) (.deleteList "a") rfl
  exact ⟨hk, rfl, rfl, by decide +kernel, by decide +kernel, hadd, by decide +kernel, hdelete⟩

end Keeper
end ListKeeper
