import ListKeeper.Proofs.Keeper.Atomicity
import ListKeeper.Proofs.Storage.Fault

/-!
This module contains what calls of the keeper do to the content of faulty storage: a call that
succeeds makes its changes, and one that fails makes some of them and undoes them, unless undoing
fails as well. Whether undoing takes the content back is a question about the content alone.
-/

namespace ListKeeper

namespace Call

def writes : Call → List Checklist → List Write
  | .createList list, _ =>
    Checklist.saves { list with items := list.items.map (·.moveTo list.id) }
  | .updateList list, _ => [.saveList list]
  | .deleteList id, lists => (lists.find? (·.id == id)).elim [] fun _ => [.deleteList id]
  | .clearAll, _ => [.clear]
  | .addItem listId item, lists =>
    (lists.find? (·.id == listId)).elim [] fun _ => [.saveItem (item.moveTo listId)]
  | .updateItem listId item, lists =>
    (lists.find? (·.id == listId)).elim [] fun _ => [.saveItem (item.moveTo listId)]
  | .removeItem listId itemId, lists =>
    ((lists.find? (·.id == listId)).bind (·.findItem? itemId)).elim [] fun _ => [.deleteItem itemId]
  | .addItems listId items, lists =>
    (lists.find? (·.id == listId)).elim [] fun _ => (items.map (·.moveTo listId)).map .saveItem
  | _, _ => []

def undoing (made : Nat) : Call → List Checklist → List Write
  | .createList list, _ => [.deleteList list.id]
  | .updateList list, lists => [.saveList ((lists.find? (·.id == list.id)).getD list)]
  | .deleteList id, lists => (lists.find? (·.id == id)).elim [] Checklist.saves
  | .clearAll, lists => lists.flatMap Checklist.saves
  | .addItem _ item, _ => [.deleteItem item.id]
  | .updateItem listId item, lists =>
    (lists.find? (·.id == listId)).elim [] fun parent =>
      [.saveItem ((parent.findItem? item.id).getD (item.moveTo listId))]
  | .removeItem listId itemId, lists =>
    ((lists.find? (·.id == listId)).bind (·.findItem? itemId)).elim [] fun item => [.saveItem item]
  | .addItems listId items, _ =>
    (((items.map (·.moveTo listId)).take made).map (·.id)).map .deleteItem
  | _, _ => []

def Undoable (call : Call) (lists : List Checklist) (image : Image) : Prop :=
  ∀ made, made <+: call.writes lists →
    (image.writeAll made).writeAll (call.undoing made.length lists) = image

def isVerified : Call → Bool
  | .createList _ | .addItem .. => true
  | _ => false

def checks (config : KeeperConfig) (call : Call) (lists : List Checklist) : List (Option Write) :=
  if config.verifyWrites && call.isVerified && !(call.writes lists).isEmpty then [none] else []

def steps (config : KeeperConfig) (call : Call) (lists : List Checklist) : List (Option Write) :=
  (call.writes lists).map some ++ call.checks config lists

section Steps

variable (config : KeeperConfig) {call : Call} {lists : List Checklist}

theorem changes_checks : changes (call.checks config lists) = [] := by
  unfold checks
  split
  · rfl
  · rfl

@[simp]
theorem changes_steps : changes (call.steps config lists) = call.writes lists := by
  unfold steps
  rw [changes_append, changes_map_some, changes_checks, List.append_nil]

theorem changes_take_steps (n : Nat) :
    changes ((call.steps config lists).take n) = (call.writes lists).take n := by
  have hnone := changes_take_prefix (call.checks config lists) (n - (call.writes lists).length)
  rw [changes_checks, List.prefix_nil] at hnone
  unfold steps
  rw [List.take_append, changes_append, List.length_map, hnone, List.append_nil, ← List.map_take,
    changes_map_some]

theorem steps_eq_nil (h : call.writes lists = []) : call.steps config lists = [] := by
  simp [steps, checks, h]

theorem steps_of_unverified (h : call.isVerified = false) :
    call.steps config lists = (call.writes lists).map some := by
  simp [steps, checks, h]

theorem steps_of_single (h : call.isVerified = false) {change : Write}
    (hwrites : call.writes lists = [change]) : call.steps config lists = [some change] := by
  rw [steps_of_unverified config h, hwrites]
  rfl

theorem steps_of_verified (h : call.isVerified = true) (hwrites : call.writes lists ≠ []) :
    call.steps config lists = (call.writes lists).map some ++
      if config.verifyWrites then [none] else [] := by
  simp [steps, checks, h, hwrites]

theorem undoing_length {n k : Nat} (hn : n < (call.steps config lists).length)
    (hk : ∀ listId items, call = .addItems listId items → k = n) :
    call.undoing ((call.writes lists).take k).length lists = call.undoing n lists := by
  -- Only where items are added does it matter how many changes were made.
  cases call with
  | addItems listId items =>
    rw [steps_of_unverified config rfl, List.length_map] at hn
    rw [hk listId items rfl, List.length_take_of_le (Nat.le_of_lt hn)]
  | _ => rfl

end Steps

/--
What a call that fails leaves in storage, which was in the state `s`: what was there when the call
does not get to storage at all, else what it has done up to the first call of storage that failed,
followed by the changes that undo the call. The latter holds if they have been `undone`, which they
are when no call of storage fails any more.
-/
inductive Fails (config : KeeperConfig) (call : Call) (lists : List Checklist) (s : FaultyStore)
    (undone : Prop) (image : Image) : Prop
  | early (hsteps : call.steps config lists = []) (himage : image = s.image) (hundone : undone)
  | stopped (n : Nat) (fate : Fate) (rest : List Fate)
    (hn : n < (call.steps config lists).length) (hfate : fate ≠ .served)
    (hfates : Fate.afterServed n s.fates = some (fate :: rest))
    (himage : undone → image =
      (s.image.writeAll ((call.writes lists).take (n + fate.effects))).writeAll
        (call.undoing n lists))
    (hundone : rest = [] → undone)

end Call

def World.RollsBack (w w' : World FaultyStore) : Prop :=
  w'.tally.compensationFailures = w.tally.compensationFailures → w'.image = w.image

def World.ShowsAgain (w w' : World FaultyStore) : Prop :=
  w'.tally.compensationFailures = w.tally.compensationFailures →
    w'.snapshot.lists = w.snapshot.lists ∨ w'.snapshot.lists = w'.image.loaded

structure Plan.Writes (plan : Plan) (s : Snapshot) (call : Call) : Prop where
  changes : plan.changes = call.writes s.lists
  undoing : ∀ made, plan.undoing made = call.undoing made s.lists
  verified : plan.verified.isSome = (call.isVerified && !(call.writes s.lists).isEmpty)
  confirmed : ∀ change id, plan.verified = some (change, id) →
    ∀ image : Image, (image.writeAll plan.changes).verify change id = true

theorem Plan.Writes.steps {plan : Plan} {s : Snapshot} {call : Call} (h : plan.Writes s call)
    (config : KeeperConfig) :
    call.steps config s.lists = plan.changes.map some ++
      if config.verifyWrites && plan.verified.isSome then [none] else [] := by
  unfold Call.steps Call.checks
  rw [h.changes, h.verified, Bool.and_assoc]

structure Mutation.Writes (m : Mutation) (call : Call) : Prop where
  plan : ∀ s plan, m.plan s = .ok plan → plan.Writes s call
  refused : ∀ s e, m.plan s = .error e → call.writes s.lists = []

namespace Mutation

variable {s : Snapshot} {listId : String} {parent : Checklist}

theorem writes_createList (list : Checklist) : (createList list).Writes (.createList list) := by
  refine ⟨?_, fun s e h => by cases h⟩
  rintro s _ ⟨⟩
  refine ⟨rfl, fun _ => rfl, rfl, ?_⟩
  rintro _ _ ⟨⟩ image
  apply Image.verify_createList
  rw [Checklist.saves, Image.writeAll_cons, Image.lists_saveItems]
  exact (Image.lists_saveList _ _ _).trans (if_pos rfl)

theorem writes_updateList (list : Checklist) : (updateList list).Writes (.updateList list) := by
  refine ⟨?_, fun s e h => by cases h⟩
  rintro s _ ⟨⟩
  exact ⟨rfl, fun _ => rfl, rfl, nofun⟩

theorem writes_deleteList (id : String) : (deleteList id).Writes (.deleteList id) := by
  refine ⟨?_, ?_⟩
  · intro s plan hplan
    dsimp only [deleteList] at hplan
    split at hplan
    · next index former hindex hformer =>
      cases hplan
      have hwrites : (Call.deleteList id).writes s.lists = [.deleteList id] := by
        simp only [Call.writes, show s.lists.find? (·.id == id) = some former from hformer,
          Option.elim_some]
      refine ⟨hwrites.symm, ?_, rfl, nofun⟩
      intro _
      simp only [Call.undoing, show s.lists.find? (·.id == id) = some former from hformer,
        Option.elim_some]
    · cases hplan
  · intro s e hplan
    dsimp only [deleteList] at hplan
    split at hplan
    · cases hplan
    · next hmissing =>
      cases hfind : s.lists.find? (·.id == id) with
      | none => simp only [Call.writes, hfind, Option.elim_none]
      | some former =>
        obtain ⟨index, hindex⟩ := findIdx?_of_find? hfind
        exact (hmissing index former hindex hfind).elim

theorem writes_clearAll : clearAll.Writes .clearAll := by
  refine ⟨?_, fun s e h => by cases h⟩
  rintro s _ ⟨⟩
  exact ⟨rfl, fun _ => rfl, rfl, nofun⟩

theorem withList_eq_error {s : Snapshot} {id : String} {f : Checklist → Except Error β} {e : Error}
    (h : s.withList id f = .error e) :
    s.findList? id = none ∨ ∃ list, s.findList? id = some list ∧ f list = .error e := by
  unfold Snapshot.withList at h
  split at h
  · next list hlist => exact .inr ⟨list, hlist, h⟩
  · next hnone => exact .inl hnone

theorem writes_withList {m : Mutation} {call : Call} {listId : String} {plan : Checklist → Plan}
    (hplan : ∀ s, m.plan s = s.withList listId fun list => .ok (plan list))
    (hnone : ∀ s : Snapshot, s.findList? listId = none → call.writes s.lists = [])
    (hsome : ∀ (s : Snapshot) list, s.findList? listId = some list → (plan list).Writes s call) :
    m.Writes call := by
  refine ⟨?_, ?_⟩
  · intro s p h
    rw [hplan] at h
    obtain ⟨list, hlist, ⟨⟩⟩ := Snapshot.withList_eq_ok h
    exact hsome s list hlist
  · intro s e h
    rw [hplan] at h
    rcases withList_eq_error h with hmissing | ⟨_, _, ⟨⟩⟩
    exact hnone s hmissing

theorem writes_addItem (listId : String) (item : Item) :
    (addItem listId item).Writes (.addItem listId item) := by
  apply writes_withList (fun _ => rfl)
  · intro s hnone
    simp only [Call.writes, show s.lists.find? (·.id == listId) = none from hnone, Option.elim_none]
  · intro s list hlist
    have hwrites : (Call.addItem listId item).writes s.lists = [.saveItem (item.moveTo listId)] := by
      simp only [Call.writes, show s.lists.find? (·.id == listId) = some list from hlist,
        Option.elim_some]
    refine ⟨hwrites.symm, fun _ => rfl, ?_, ?_⟩
    · rw [hwrites]
      rfl
    · rintro _ _ ⟨⟩ image
      apply Image.verify_createItem
      exact (Image.items_saveItem _ _ _).trans (if_pos rfl)

theorem writes_updateItem (listId : String) (item : Item) :
    (updateItem listId item).Writes (.updateItem listId item) := by
  apply writes_withList (fun _ => rfl)
  · intro s hnone
    simp only [Call.writes, show s.lists.find? (·.id == listId) = none from hnone, Option.elim_none]
  · intro s list hlist
    have hfind : s.lists.find? (·.id == listId) = some list := hlist
    have hwrites : (Call.updateItem listId item).writes s.lists =
        [.saveItem (item.moveTo listId)] := by
      simp only [Call.writes, hfind, Option.elim_some]
    refine ⟨hwrites.symm, ?_, rfl, nofun⟩
    intro _
    simp only [Call.undoing, hfind, Option.elim_some]
    rfl

theorem writes_removeItem (listId itemId : String) :
    (removeItem listId itemId).Writes (.removeItem listId itemId) := by
  refine ⟨?_, ?_⟩
  · intro s plan hplan
    obtain ⟨parent, hparent, h⟩ := Snapshot.withList_eq_ok hplan
    split at h
    · next index former hindex hformer =>
      cases h
      have hfound : (s.lists.find? (·.id == listId)).bind (·.findItem? itemId) = some former := by
        rw [show s.lists.find? (·.id == listId) = some parent from hparent]
        exact hformer
      have hwrites : (Call.removeItem listId itemId).writes s.lists = [.deleteItem itemId] := by
        simp only [Call.writes, hfound, Option.elim_some]
      refine ⟨hwrites.symm, ?_, rfl, nofun⟩
      intro _
      simp only [Call.undoing, hfound, Option.elim_some]
    · cases h
  · intro s e hplan
    have hnone : (s.lists.find? (·.id == listId)).bind (·.findItem? itemId) = none := by
      rcases withList_eq_error hplan with hmissing | ⟨parent, hparent, h⟩
      · rw [show s.lists.find? (·.id == listId) = none from hmissing]
        rfl
      · rw [show s.lists.find? (·.id == listId) = some parent from hparent, Option.bind_some]
        split at h
        · cases h
        · next hmissing =>
          rw [Option.eq_none_iff_forall_ne_some]
          intro former hformer
          obtain ⟨index, hindex⟩ := findIdx?_of_find? hformer
          exact hmissing index former hindex hformer
    simp only [Call.writes, hnone, Option.elim_none]

theorem writes_addItems (listId : String) (items : List Item) :
    (addItems listId items).Writes (.addItems listId items) := by
  apply writes_withList (fun _ => rfl)
  · intro s hnone
    simp only [Call.writes, show s.lists.find? (·.id == listId) = none from hnone, Option.elim_none]
  · intro s list hlist
    refine ⟨?_, ?_, rfl, nofun⟩
    · simp only [Call.writes, show s.lists.find? (·.id == listId) = some list from hlist,
        Option.elim_some]
    · intro made
      simp only [Call.undoing, List.map_map]
      rfl

end Mutation

theorem Call.writes_mutation? {call : Call} {m : Mutation} (hm : call.mutation? = some m) :
    m.Writes call := by
  cases call with
  | createList list => cases hm; exact Mutation.writes_createList list
  | updateList list => cases hm; exact Mutation.writes_updateList list
  | deleteList id => cases hm; exact Mutation.writes_deleteList id
  | clearAll => cases hm; exact Mutation.writes_clearAll
  | addItem listId item => cases hm; exact Mutation.writes_addItem listId item
  | updateItem listId item => cases hm; exact Mutation.writes_updateItem listId item
  | removeItem listId itemId => cases hm; exact Mutation.writes_removeItem listId itemId
  | addItems listId items => cases hm; exact Mutation.writes_addItems listId items
  | _ => cases hm

def World.Fails (config : KeeperConfig) (call : Call) (w w' : World FaultyStore) : Prop :=
  call.Fails config w.snapshot.lists w.storage
    (w'.tally.compensationFailures = w.tally.compensationFailures) w'.image

namespace Keeper

open Act World

section Rules

variable {config : KeeperConfig} {call : Call} {w : World FaultyStore}

def Persists (writes : List Write) (m : Act (World FaultyStore) α) (w : World FaultyStore) : Prop :=
  m.Ends w
    (fun _ w' => w'.image = w.image.writeAll writes)
    (fun _ w' => w.RollsBack w')

/--
The action does to storage what the call is there for: it takes all steps of the call, or it fails
and undoes those that it has taken.
-/
def Settles (config : KeeperConfig) (call : Call) (m : Act (World FaultyStore) α)
    (w : World FaultyStore) : Prop :=
  m.Ends w
    (fun _ w' => w'.image = w.image.writeAll (call.writes w.snapshot.lists) ∧
      (Fate.afterServed (call.steps config w.snapshot.lists).length
        w.storage.fates).isSome = true)
    (fun _ w' => w.Fails config call w')

theorem Settles.persists {m : Act (World FaultyStore) α} (hm : Settles config call m w)
    (hlost : ∀ listId items, call = .addItems listId items → w.storage.LosesNothing)
    (hundo : call.Undoable w.snapshot.lists w.image) :
    Persists (call.writes w.snapshot.lists) m w := by
  apply hm.mono
  · rintro _ w' ⟨himage, _⟩
    exact himage
  · rintro _ w' hfails hfailures
    cases hfails with
    | early _ himage _ => exact himage
    | stopped n fate rest hn hfate hfates himage _ =>
      rw [himage hfailures, ← Call.undoing_length config hn]
      · exact hundo _ (List.take_prefix _ _)
      · intro listId items hitems
        have hnone := (hlost listId items hitems).effects_eq_zero
          (Fate.mem_of_afterServed hfates) hfate
        rw [hnone, Nat.add_zero]

end Rules

section Plans

variable (config : KeeperConfig) {call : Call} {plan : Plan} {w w₁ w₂ : World FaultyStore}

theorem ends_forward_steps (hplan : plan.Writes w.snapshot call)
    (hshown : plan.shown.outcome w.snapshot = .ok ()) :
    ((faulty config).forward plan).Ends w
      (fun r w' => (r.1 = .ok () → w.Took (call.steps config w.snapshot.lists) w') ∧
        ∀ e, r.1 = .error e →
          ∃ fate, w.Stopped (call.steps config w.snapshot.lists) r.2 fate w')
      (fun _ _ => False) := by
  have hk : (faulty config).gateway.Discreet := Gateway.discreet_within _
  have hwrites := (all_writeAll built_discreet hk.all plan.changes).ends w
  rw [hplan.steps config]
  unfold forward
  apply Ends.bind (p := fun r w' => w.Untouched w' ∧ Written plan.changes r w w')
  · exact (hwrites.and (ends_writeAll config plan.changes)).mono (fun _ _ h => h) fun _ _ h => h.2
  rintro ⟨e | _, made⟩ w₁ ⟨huntouched, hwritten⟩
  · refine ⟨nofun, ?_⟩
    rintro _ ⟨⟩
    obtain ⟨fate, hstopped⟩ := hwritten.some e rfl
    exact ⟨fate, hstopped.append _⟩
  · obtain ⟨htook, hmade⟩ := hwritten.all rfl
    have hconfirmed : ∀ change id, plan.verified = some (change, id) →
        w₁.image.verify change id = true := by
      intro change id h
      rw [htook.image, changes_map_some]
      exact hplan.confirmed change id h w.image
    have hshow : Takes (if config.verifyWrites && plan.verified.isSome then [none] else [])
        (do (faulty config).verify plan.verified; publishShowing plan.shown : Act _ _) w₁ := by
      apply (takes_verify config hconfirmed).finish
      intro _ w₂ hrun
      have hverified := all_verify built_discreet hk.all plan.verified w₁
      rw [hrun] at hverified
      apply takes_publishShowing
      rw [hverified.snapshot, huntouched.snapshot]
      exact hshown
    apply Ends.bindOutcome hshow
    · intro _ w₂ h₂
      exact ⟨fun _ => htook.trans h₂, nofun⟩
    · rintro e w₂ ⟨n, fate, h₂⟩
      refine ⟨nofun, ?_⟩
      rintro _ ⟨⟩
      -- Verification is the only step that is left.
      have hn : n = 0 := by
        have hlt := h₂.lt_length
        split at hlt
        · exact Nat.lt_one_iff.1 hlt
        · exact absurd hlt (Nat.not_lt_zero n)
      subst hn
      have hstopped := htook.stopped h₂
      rw [List.length_map, ← show made = _ from hmade] at hstopped
      exact ⟨fate, hstopped⟩

theorem takes_undo (plan : Plan) (made : Nat) (w : World FaultyStore) :
    ∃ back, changes back = plan.undoing made ∧ Takes back ((faulty config).undo plan made) w := by
  have hwrites := takes_each_write config (w := w) (plan.undoing made)
  have hrestored (w : World FaultyStore) : ∃ reads, changes reads = [] ∧
      Takes reads ((faulty config).publishRestoring plan.restored) w := by
    cases plan.restored with
    | nothing => exact ⟨[], rfl, takes_pure ()⟩
    | edit edit => exact ⟨[], rfl, (takes_publish edit).finish fun _ _ _ => takes_pure ()⟩
    | reload lists =>
      have hreread : ∃ reads, changes reads = [] ∧ Takes reads ((faulty config).reread lists) w := by
        unfold reread
        split
        · exact takes_fetchAll config
        · exact ⟨[], rfl, takes_pure _⟩
      obtain ⟨reads, hreads, htakes⟩ := hreread
      refine ⟨reads, hreads, htakes.finish fun _ _ _ => ?_⟩
      exact (takes_publish _).finish fun _ _ _ => takes_pure ()
  obtain ⟨back, hback, hundo⟩ := hwrites.bind_reads fun _ => hrestored
  rw [changes_map_some] at hback
  exact ⟨back, hback, hundo⟩

variable {config} in
theorem fails_of_undo {e : Error} {operation : String} {made : Nat} {fate : Fate}
    {outcome : Except Error Unit} (hplan : plan.Writes w.snapshot call)
    (h : w.Stopped (call.steps config w.snapshot.lists) made fate w₁)
    (hundo : ((faulty config).undo plan made).run (w₁.notice (.compensating operation e)) =
      (outcome, w₂)) :
    w.Fails config call ((w₂.undone operation e outcome).reporting operation e) := by
  obtain ⟨back, hback, htakes⟩ := takes_undo config plan made (w₁.notice (.compensating operation e))
  rcases outcome with c | _
  · obtain ⟨n, fate', h'⟩ := htakes.of_error hundo
    have htally : w₂.tally = w.tally := h'.tally.trans h.tally
    refine .stopped made fate w₁.storage.fates h.lt_length h.failed h.fates ?_ ?_
    -- A compensation that fails is counted, so there is nothing to prove.
    · intro hfailures
      rw [tally_reporting, compensationFailures_undone, htally] at hfailures
      exact absurd hfailures (Nat.succ_ne_self _)
    · intro hrest
      exact absurd hrest h'.fates_ne_nil
  · have h' := htakes.of_ok hundo
    have htally : w₂.tally = w.tally := h'.tally.trans h.tally
    refine .stopped made fate w₁.storage.fates h.lt_length h.failed h.fates ?_ ?_
    · intro _
      calc
        w₂.image = w₁.image.writeAll (changes back) := h'.image
        _ = _ := by rw [h.image, hback, hplan.undoing, Call.changes_take_steps]; rfl
    · intro _
      rw [tally_reporting, compensationFailures_undone, htally]
      rfl

end Plans

section Calls

variable (config : KeeperConfig) (w : World FaultyStore)

theorem settles_carryOut {call : Call} {m : Mutation} (hm : m.Writes call) (hturns : m.Turns call) :
    Settles config call ((faulty config).carryOut m) w := by
  have hproceeds := proceeds_carryOut (faulty config) m w
  apply (ends_run _ w).mono
  · intro reply w' hrun
    simp only [hrun] at hproceeds
    cases hproceeds with
    | committed hplan hforward =>
      have htook := ((ends_forward_steps config (w := w.observe (.entered m.span))
        (hm.plan _ _ hplan) (hturns _ _ hplan).outcome).of_ok hforward).1 rfl
      have himage := htook.image
      rw [Call.changes_steps] at himage
      rw [foldl_notice]
      exact ⟨himage, Option.isSome_of_eq_some htook.fates⟩
  · intro e w' hrun
    simp only [hrun] at hproceeds
    cases hproceeds with
    | refused hplan => exact .early (Call.steps_eq_nil config (hm.refused _ _ hplan)) rfl rfl
    | rolledBack hplan hforward hundo =>
      obtain ⟨fate, hstopped⟩ := ((ends_forward_steps config (w := w.observe (.entered m.span))
        (hm.plan _ _ hplan) (hturns _ _ hplan).outcome).of_ok hforward).2 e rfl
      exact fails_of_undo (w := w.observe (.entered m.span)) (hm.plan _ _ hplan) hstopped hundo

theorem settles_perform {call : Call} (hcall : call.isMutation = true) :
    Settles config call ((faulty config).perform call) w := by
  obtain ⟨m, hm⟩ := Call.exists_mutation hcall
  rw [perform_eq_carryOut hm]
  exact settles_carryOut config w (Call.writes_mutation? hm) (Call.turns_mutation? hm)

theorem persists_perform {call : Call} (hcall : call.isMutation = true)
    (hlost : ∀ listId items, call = .addItems listId items → w.storage.LosesNothing)
    (hundo : call.Undoable w.snapshot.lists w.image) :
    Persists (call.writes w.snapshot.lists) ((faulty config).perform call) w :=
  (settles_perform config w hcall).persists hlost hundo

variable {w} in
theorem ends_undo_reload {plan : Plan} {former : List Checklist} (made : Nat)
    (h : plan.restored = .reload former) :
    ((faulty config).undo plan made).Ends w
      (fun _ w' => w'.snapshot.lists = former ∨ w'.snapshot.lists = w'.image.loaded)
      (fun _ _ => True) := by
  unfold undo publishRestoring
  rw [h]
  apply Ends.bind (ends_of_run (p := fun _ => True) trivial)
  intro _ w₁ _
  apply Ends.bind (p := fun lists w' => lists = former ∨ lists = w'.image.loaded)
  · unfold reread
    split
    · apply ((ends_fetchAll config w₁).and (ends_fetchAll_unchanged config w₁)).mono
      · rintro lists w₂ ⟨hlists, himage⟩
        rw [himage]
        exact .inr hlists
      · exact fun _ _ _ => trivial
    · exact .inl rfl
  · intro lists w₂ hlists
    exact hlists

theorem ends_clearAll_shown :
    ((faulty config).carryOut .clearAll).Ends w (fun _ _ => True)
      (fun _ w' => w.ShowsAgain w') := by
  have hk : (faulty config).gateway.Discreet := Gateway.discreet_within _
  have hentered : Untouched w (w.observe (.entered Mutation.clearAll.span)) :=
    (Untouched.refl w).observe rfl
  have hproceeds := proceeds_carryOut (faulty config) .clearAll w
  apply (ends_run _ w).mono
  · exact fun _ _ _ => trivial
  · intro e w' hrun
    simp only [hrun] at hproceeds
    cases hproceeds with
    | refused hplan => cases hplan
    | @rolledBack _ _ made outcome w₁ w₂ hplan hforward hundo =>
      have hturns := Mutation.turns_clearAll _ _ hplan
      have hbefore : Untouched w w₁ := (ends_forward hk hentered hturns).of_ok hforward
      have hends := ends_undo hk (hbefore.notice (.compensating "clear_all" e)) hturns made
      intro hfailures
      rcases outcome with c | _
      · have hstuck := hends.of_error hundo
        rw [tally_reporting, compensationFailures_undone, hstuck.tally] at hfailures
        exact absurd hfailures (Nat.succ_ne_self _)
      · cases hplan
        have hshown := (ends_undo_reload config made rfl).of_ok hundo
        exact hshown

theorem ends_loadAll :
    (faulty config).loadAll.Ends w
      (fun _ w' => w'.image = w.image ∧ w'.snapshot.lists = w.image.loaded)
      (fun _ w' => w'.image = w.image ∧ w'.snapshot.lists = w.snapshot.lists) := by
  unfold loadAll
  apply Ends.bind (p := fun _ w₁ => w₁.image = w.image ∧ w₁.snapshot.lists = w.snapshot.lists)
  · exact ⟨rfl, rfl⟩
  rintro _ w₁ ⟨himage₁, hlists₁⟩
  apply Ends.bind (p := fun _ w₂ => w₂.image = w.image ∧ w₂.snapshot.lists = w.snapshot.lists)
  · exact ⟨himage₁, hlists₁⟩
  rintro _ w₂ ⟨himage₂, hlists₂⟩
  have hdiscreet := discreet_fetchAll (k := faulty config) (Gateway.discreet_within _)
  have hfetch := (ends_fetchAll_unchanged config w₂).and
    ((hdiscreet.ends w₂).and (ends_fetchAll config w₂))
  apply Ends.bindOutcome hfetch
  · rintro lists w₃ ⟨himage₃, _, hlists⟩
    refine ⟨himage₃.trans himage₂, ?_⟩
    rw [← himage₂, ← hlists]
    rfl
  · rintro e w₃ ⟨himage₃, huntouched, _⟩
    refine ⟨himage₃.trans himage₂, ?_⟩
    rw [← hlists₂, ← huntouched.snapshot]
    rfl

end Calls
end Keeper
end ListKeeper
