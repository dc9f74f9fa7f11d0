import ListKeeper.Proofs.Draft
import ListKeeper.Proofs.Keeper.Basic

/-!
This module contains what holds of all calls that change lists, because they have one shape: how such
a call comes to its result, when it is refused, and what it publishes.
-/

namespace ListKeeper

def World.undone (w : World σ) (operation : String) (e : Error) : Except Error Unit → World σ
  | .ok () => w.counted Tally.rollBack
  | .error c => ((w.counted Tally.failCompensation).notice
      (.compensationFailed operation e c)).counted Tally.rollBack

theorem World.foldl_notice (notices : List Notice) (w : World σ) :
    notices.foldl World.notice w = { w with journal := w.journal ++ notices.map .noticed } := by
  induction notices generalizing w with
  | nil =>
    rw [List.map_nil, List.append_nil]
    rfl
  | cons n rest ih =>
    rw [List.foldl_cons, ih, List.map_cons, List.append_cons]
    rfl

def World.reporting (w : World σ) (operation : String) (e : Error) : World σ :=
  (w.observe (.reported s!"ListsOrchestrator::{operation}" e)).publish
    fun d => { d with error := some e.userMessage }

namespace World

variable (w : World σ)

@[simp]
theorem tally_foldl_notice (notices : List Notice) :
    (notices.foldl World.notice w).tally = w.tally := by
  rw [foldl_notice]

@[simp]
theorem tally_reporting (operation : String) (e : Error) :
    (w.reporting operation e).tally = w.tally := rfl

@[simp]
theorem committed_undone (operation : String) (e : Error) (outcome : Except Error Unit) :
    (w.undone operation e outcome).tally.committed = w.tally.committed := by
  rcases outcome with c | _
  · rfl
  · rfl

@[simp]
theorem rolledBack_undone (operation : String) (e : Error) (outcome : Except Error Unit) :
    (w.undone operation e outcome).tally.rolledBack = w.tally.rolledBack + 1 := by
  rcases outcome with c | _
  · rfl
  · rfl

@[simp]
theorem compensationFailures_undone (operation : String) (e : Error)
    (outcome : Except Error Unit) :
    (w.undone operation e outcome).tally.compensationFailures =
      w.tally.compensationFailures + (!outcome.isOk).toNat := by
  rcases outcome with c | _
  · rfl
  · rfl

variable {w} {w' : World σ} {lists : List Checklist}

theorem ShowsOnly.undone (h : ShowsOnly lists w w') (operation : String) (e : Error)
    (outcome : Except Error Unit) : ShowsOnly lists w (w'.undone operation e outcome) := by
  rcases outcome with c | _
  · exact ((h.counted _).notice _).counted _
  · exact h.counted _

theorem ShowsOnly.reporting (h : ShowsOnly lists w w') (operation : String) (e : Error) :
    ShowsOnly lists w (w'.reporting operation e) :=
  (h.observe rfl).publish rfl

theorem Commits.notices (h : Commits lists w w') (notices : List Notice) :
    Commits lists w (notices.foldl World.notice w') := by
  induction notices generalizing w' with
  | nil => exact h
  | cons n rest ih => exact ih (h.notice n)

end World

def Call.isMutation : Call → Bool
  | .createList _ | .updateList _ | .deleteList _ | .clearAll => true
  | .addItem .. | .updateItem .. | .removeItem .. | .addItems .. => true
  | _ => false

def Snapshot.missingList? (s : Snapshot) (id : String) : Option Error :=
  match s.findList? id with
  | some _ => none
  | none => some (.notFound "list" id)

/--
The failure with which a call is refused before it reaches storage, because the list or the item
that it is about is not shown.
-/
def Call.refusal? (s : Snapshot) : Call → Option Error
  | .deleteList id | .addItem id _ | .updateItem id _ | .addItems id _ => s.missingList? id
  | .removeItem listId itemId =>
    match s.findList? listId with
    | some list =>
      match list.findItem? itemId with
      | some _ => none
      | none => some (.notFound "item" itemId)
    | none => some (.notFound "list" listId)
  | _ => none

namespace Call

variable {call : Call} {m : Mutation}

theorem exists_mutation (hcall : call.isMutation = true) : ∃ m, call.mutation? = some m := by
  cases call with
  | createList list => exact ⟨_, rfl⟩
  | updateList list => exact ⟨_, rfl⟩
  | deleteList id => exact ⟨_, rfl⟩
  | clearAll => exact ⟨_, rfl⟩
  | addItem listId item => exact ⟨_, rfl⟩
  | updateItem listId item => exact ⟨_, rfl⟩
  | removeItem listId itemId => exact ⟨_, rfl⟩
  | addItems listId items => exact ⟨_, rfl⟩
  | _ => cases hcall

theorem isMutation_of_mutation? (hm : call.mutation? = some m) : call.isMutation = true := by
  cases call with
  | createList list => rfl
  | updateList list => rfl
  | deleteList id => rfl
  | clearAll => rfl
  | addItem listId item => rfl
  | updateItem listId item => rfl
  | removeItem listId itemId => rfl
  | addItems listId items => rfl
  | _ => cases hm

end Call

theorem Snapshot.withList_eq_ok {s : Snapshot} {id : String} {f : Checklist → Except Error β}
    {b : β} (h : s.withList id f = .ok b) : ∃ list, s.findList? id = some list ∧ f list = .ok b := by
  unfold withList at h
  split at h
  · next list hlist => exact ⟨list, hlist, h⟩
  · cases h

theorem Call.plan_of_refusal? {call : Call} {m : Mutation} (hm : call.mutation? = some m)
    (s : Snapshot) :
    match call.refusal? s with
    | some e => m.plan s = .error e
    | none => ∃ plan, m.plan s = .ok plan := by
  cases call with
  | createList list => cases hm; exact ⟨_, rfl⟩
  | updateList list => cases hm; exact ⟨_, rfl⟩
  | deleteList id =>
    cases hm
    simp only [refusal?, Snapshot.missingList?, Mutation.deleteList]
    cases hfind : s.findList? id with
    | none =>
      cases s.positionOf? id with
      | none => rfl
      | some _ => rfl
    | some former =>
      obtain ⟨index, hindex⟩ := findIdx?_of_find? hfind
      rw [show s.positionOf? id = some index from hindex]
      exact ⟨_, rfl⟩
  | clearAll => cases hm; exact ⟨_, rfl⟩
  | removeItem listId itemId =>
    cases hm
    simp only [refusal?, Mutation.removeItem, Snapshot.withList]
    cases s.findList? listId with
    | none => rfl
    | some list =>
      dsimp only
      cases hfind : list.findItem? itemId with
      | none =>
        cases list.positionOf? itemId with
        | none => rfl
        | some _ => rfl
      | some former =>
        obtain ⟨index, hindex⟩ := findIdx?_of_find? hfind
        rw [show list.positionOf? itemId = some index from hindex]
        exact ⟨_, rfl⟩
  | addItem listId item | updateItem listId item | addItems listId items =>
    cases hm
    simp only [refusal?, Snapshot.missingList?, Mutation.addItem, Mutation.updateItem,
      Mutation.addItems, Snapshot.withList]
    cases s.findList? listId with
    | none => rfl
    | some list => exact ⟨_, rfl⟩
  | _ => cases hm

namespace Keeper

variable {k : Keeper σ} {m : Mutation}

theorem perform_eq_carryOut {call : Call} (hm : call.mutation? = some m) :
    k.perform call = k.carryOut m := by
  cases call with
  | createList list => cases hm; rfl
  | updateList list => cases hm; rfl
  | deleteList id => cases hm; rfl
  | clearAll => cases hm; rfl
  | addItem listId item => cases hm; rfl
  | updateItem listId item => cases hm; rfl
  | removeItem listId itemId => cases hm; rfl
  | addItems listId items => cases hm; rfl
  | _ => cases hm

/--
How a call that changes lists comes to its result and to the state after it. Either the check
refuses it, or the forward action succeeds, or it fails and the compensation is run, once and from
there. Nothing else is done but to announce the call, to count, to report and to answer.
-/
inductive Proceeds (k : Keeper σ) (m : Mutation) (w : World σ) :
    Except Error Reply → World σ → Prop
  | refused {e : Error} (hplan : m.plan w.snapshot = .error e) :
    Proceeds k m w (.error e) ((w.observe (.entered m.span)).reporting m.operation e)
  | committed {plan : Plan} {made : Nat} {w₁ : World σ} (hplan : m.plan w.snapshot = .ok plan)
    (hforward : (k.forward plan).run (w.observe (.entered m.span)) = (.ok (.ok (), made), w₁)) :
    Proceeds k m w (.ok (m.reply w₁.snapshot))
      ((m.notices w.snapshot).foldl World.notice (w₁.counted Tally.commit))
  | rolledBack {plan : Plan} {e : Error} {made : Nat} {outcome : Except Error Unit}
    {w₁ w₂ : World σ} (hplan : m.plan w.snapshot = .ok plan)
    (hforward : (k.forward plan).run (w.observe (.entered m.span)) = (.ok (.error e, made), w₁))
    (hundo : (k.undo plan made).run (w₁.notice (.compensating m.operation e)) = (outcome, w₂)) :
    Proceeds k m w (.error e) ((w₂.undone m.operation e outcome).reporting m.operation e)

section Run

variable {w w' : World σ}

theorem run_compensate (operation : String) (e : Error) (compensation : Act (World σ) Unit) :
    (compensate operation e compensation).run w =
      let (outcome, w) := compensation.run (w.notice (.compensating operation e))
      (.ok (), w.undone operation e outcome) := by
  show (compensation.outcome >>= _).run (w.notice (.compensating operation e)) = _
  rw [Act.run_bind, Act.run_outcome]
  rcases compensation.run (w.notice (.compensating operation e)) with ⟨c | _, w₁⟩
  · rfl
  · rfl

theorem run_transactTracking (operation : String) (forward : Act (World σ) (Except Error α × β))
    (compensation : β → Act (World σ) Unit) :
    (transactTracking operation forward compensation).run w =
      match forward.run w with
      | (.ok (.ok a, _), w) => (.ok a, w.counted Tally.commit)
      | (.ok (.error e, done), w) =>
        let (outcome, w) := (compensation done).run (w.notice (.compensating operation e))
        (.error e, w.undone operation e outcome)
      | (.error e, w) => (.error e, w) := by
  unfold transactTracking
  rw [Act.run_bind]
  rcases forward.run w with ⟨e | ⟨e | a, done⟩, w₁⟩
  · rfl
  · dsimp only
    rw [Act.run_bind, run_compensate]
    rfl
  · rfl

theorem run_settle_error {operation : String} {act : Act (World σ) α} {e : Error}
    (h : act.run w = (.error e, w')) :
    (settle operation act).run w = (.error e, w'.reporting operation e) := by
  unfold settle
  rw [Act.run_bind, Act.run_outcome, h]
  rfl

theorem run_settle_ok {operation : String} {act : Act (World σ) α} {a : α}
    (h : act.run w = (.ok a, w')) : (settle operation act).run w = (.ok a, w') := by
  unfold settle
  rw [Act.run_bind, Act.run_outcome, h]
  rfl

theorem run_each_notice (notices : List Notice) (w : World σ) :
    (Act.each Act.notice notices).run w = (.ok (), notices.foldl World.notice w) := by
  induction notices generalizing w with
  | nil => rfl
  | cons n rest ih =>
    show (Act.notice n >>= fun _ => Act.each Act.notice rest).run w = _
    rw [Act.run_bind]
    exact ih (w.notice n)

theorem run_writeAll (k : Keeper σ) (changes : List Write) (w : World σ) :
    ∃ outcome made w', (k.writeAll changes).run w = (.ok (outcome, made), w') := by
  induction changes generalizing w with
  | nil => exact ⟨_, _, _, rfl⟩
  | cons change rest ih =>
    unfold writeAll
    rw [Act.run_bind, Act.run_outcome]
    rcases (k.write change).run w with ⟨e | _, w₁⟩
    · exact ⟨_, _, _, rfl⟩
    · obtain ⟨outcome, made, w₂, h⟩ := ih w₁
      dsimp only
      rw [Act.run_bind, h]
      exact ⟨_, _, _, rfl⟩

theorem run_forward (k : Keeper σ) (plan : Plan) (w : World σ) :
    ∃ outcome made w', (k.forward plan).run w = (.ok (outcome, made), w') := by
  unfold forward
  obtain ⟨outcome, made, w₁, h⟩ := run_writeAll k plan.changes w
  rw [Act.run_bind, h]
  rcases outcome with e | _
  · exact ⟨_, _, _, rfl⟩
  · dsimp only
    rw [Act.run_bind, Act.run_outcome]
    exact ⟨_, _, _, rfl⟩

theorem Proceeds.run_carryOut {result : Except Error Reply} (h : k.Proceeds m w result w') :
    (k.carryOut m).run w = (result, w') := by
  have hrun : (k.carryOut m).run w =
      (settle m.operation (Act.ofExcept (m.plan w.snapshot) >>= fun plan =>
        transactTracking m.operation (k.forward plan) (k.undo plan)) >>= fun _ =>
          Act.each Act.notice (m.notices w.snapshot) >>= fun _ =>
            Act.snapshot >>= fun s => pure (m.reply s)).run (w.observe (.entered m.span)) := rfl
  rw [hrun, Act.run_bind]
  cases h with
  | @refused e hplan =>
    have hrefused : (Act.ofExcept (.error e) >>= fun plan =>
        transactTracking m.operation (k.forward plan) (k.undo plan)).run
          (w.observe (.entered m.span)) = (.error e, w.observe (.entered m.span)) := rfl
    rw [hplan, run_settle_error hrefused]
  | @committed plan made w₁ hplan hforward =>
    have hsettled : (settle m.operation (Act.ofExcept (.ok plan) >>= fun plan =>
        transactTracking m.operation (k.forward plan) (k.undo plan))).run
          (w.observe (.entered m.span)) = (.ok (), w₁.counted Tally.commit) := by
      apply run_settle_ok
      show (transactTracking m.operation (k.forward plan) (k.undo plan)).run _ = _
      rw [run_transactTracking, hforward]
    rw [hplan, hsettled]
    dsimp only
    rw [Act.run_bind, run_each_notice, World.foldl_notice]
    rfl
  | @rolledBack plan e made outcome w₁ w₂ hplan hforward hundo =>
    have hsettled : (settle m.operation (Act.ofExcept (.ok plan) >>= fun plan =>
        transactTracking m.operation (k.forward plan) (k.undo plan))).run
          (w.observe (.entered m.span)) =
        (.error e, (w₂.undone m.operation e outcome).reporting m.operation e) := by
      apply run_settle_error
      show (transactTracking m.operation (k.forward plan) (k.undo plan)).run _ = _
      rw [run_transactTracking, hforward]
      dsimp only
      rw [hundo]
    rw [hplan, hsettled]

theorem proceeds_carryOut (k : Keeper σ) (m : Mutation) (w : World σ) :
    k.Proceeds m w ((k.carryOut m).run w).1 ((k.carryOut m).run w).2 := by
  suffices h : ∃ result w', k.Proceeds m w result w' by
    obtain ⟨result, w', h⟩ := h
    rw [h.run_carryOut]
    exact h
  rcases hplan : m.plan w.snapshot with e | plan
  · exact ⟨_, _, .refused hplan⟩
  · obtain ⟨outcome, made, w₁, hforward⟩ := run_forward k plan (w.observe (.entered m.span))
    rcases outcome with e | _
    · exact ⟨_, _, .rolledBack hplan hforward rfl⟩
    · exact ⟨_, _, .committed hplan hforward⟩

theorem proceeds_perform {call : Call} (hm : call.mutation? = some m) (w : World σ) :
    k.Proceeds m w ((k.perform call).run w).1 ((k.perform call).run w).2 := by
  rw [perform_eq_carryOut hm]
  exact proceeds_carryOut k m w

end Run

end Keeper
end ListKeeper
