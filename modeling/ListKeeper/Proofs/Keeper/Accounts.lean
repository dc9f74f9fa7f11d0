import ListKeeper.Proofs.Keeper.Status
import ListKeeper.Proofs.Storage.Fault

/-!
This module contains the books that are kept over a run: how many transactions were committed or
undone, how many could not be undone, and which failures were reported. All of this is determined by
the results of the calls.
-/

namespace ListKeeper

def Event.report? : Event → Option (String × Error)
  | .reported context e => some (context, e)
  | _ => none

namespace World

variable (w : World σ)

def reports : List (String × Error) :=
  w.journal.filterMap Event.report?

@[simp]
theorem reports_observe (event : Event) :
    (w.observe event).reports = w.reports ++ event.report?.toList := by
  unfold reports observe
  rw [List.filterMap_append]
  cases event <;> rfl

@[simp]
theorem reports_notice (n : Notice) : (w.notice n).reports = w.reports := by
  unfold notice
  rw [reports_observe]
  exact List.append_nil _

@[simp]
theorem reports_counted (f : Tally → Tally) : (w.counted f).reports = w.reports := rfl

@[simp]
theorem reports_publish (edit : Draft → Draft) : (w.publish edit).reports = w.reports := by
  have h : (w.publish edit).reports =
      ({ w with board := w.board.publish edit }.observe
        (.published (w.board.publish edit).snapshot)).reports := rfl
  rw [h, reports_observe]
  exact List.append_nil _

@[simp]
theorem reports_foldl_notice (notices : List Notice) :
    (notices.foldl World.notice w).reports = w.reports := by
  induction notices generalizing w with
  | nil => rfl
  | cons n rest ih =>
    rw [List.foldl_cons, ih]
    exact w.reports_notice n

@[simp]
theorem reports_reporting (operation : String) (e : Error) :
    (w.reporting operation e).reports = w.reports ++ [(s!"ListsOrchestrator::{operation}", e)] := by
  unfold reporting
  rw [reports_publish, reports_observe]
  rfl

@[simp]
theorem reports_undone (operation : String) (e : Error) (outcome : Except Error Unit) :
    (w.undone operation e outcome).reports = w.reports := by
  rcases outcome with c | _
  · exact reports_notice _ _
  · rfl

structure SameBooks (w w' : World σ) : Prop where
  tally : w'.tally = w.tally
  reports : w'.reports = w.reports

theorem SameBooks.refl : SameBooks w w := ⟨rfl, rfl⟩

theorem sameBooks_publish (edit : Draft → Draft) : SameBooks w (w.publish edit) :=
  ⟨rfl, w.reports_publish edit⟩

theorem sameBooks_observe {event : Event} (h : event.report? = none) :
    SameBooks w (w.observe event) := by
  refine ⟨rfl, ?_⟩
  rw [reports_observe, h]
  exact List.append_nil _

variable {w} {w' w'' : World σ}

theorem SameBooks.trans (h : SameBooks w w') (h' : SameBooks w' w'') : SameBooks w w'' :=
  ⟨h'.tally.trans h.tally, h'.reports.trans h.reports⟩

end World

theorem Act.Only.sameBooks {m : Act (World σ) α} (h : m.Only World.SameBooks) (w : World σ) :
    World.SameBooks w (m.run w).2 :=
  h.keeps (p := World.SameBooks w) (fun _ _ hstep hw => hw.trans hstep) (.refl w)

def Gateway.Bookless (g : Gateway (World σ)) : Prop :=
  g.Only World.SameBooks

theorem Gateway.bookless_within (g : Gateway σ) : g.within.Bookless :=
  Gateway.only_within fun _ _ => ⟨rfl, rfl⟩

def Call.operation? : Call → Option String
  | .createList _ => some "create_list"
  | .updateList _ => some "update_list"
  | .deleteList _ => some "delete_list"
  | .clearAll => some "clear_all"
  | .loadAll => some "load_all"
  | .addItem .. => some "add_item"
  | .updateItem .. => some "update_item"
  | .removeItem .. => some "remove_item"
  | .addItems .. => some "add_items"
  | _ => none

structure Moment (σ : Type) where
  call : Call
  state : World σ

namespace Keeper

variable (k : Keeper σ)

def undoing? (m : Mutation) (w : World σ) : Option (Except Error Unit) :=
  match m.plan w.snapshot with
  | .error _ => none
  | .ok plan =>
    match (k.forward plan).run (w.observe (.entered m.span)) with
    | (.ok (.error e, made), w₁) =>
      some ((k.undo plan made).run (w₁.notice (.compensating m.operation e))).1
    | _ => none

section Undoing

variable {k} {m : Mutation} {w w₁ w₂ : World σ} {plan : Plan} {made : Nat}

theorem undoing?_of_refused {e : Error} (hplan : m.plan w.snapshot = .error e) :
    k.undoing? m w = none := by
  unfold undoing?
  rw [hplan]

theorem undoing?_of_committed (hplan : m.plan w.snapshot = .ok plan)
    (hforward : (k.forward plan).run (w.observe (.entered m.span)) = (.ok (.ok (), made), w₁)) :
    k.undoing? m w = none := by
  unfold undoing?
  simp only [hplan, hforward]

theorem undoing?_of_rolledBack {e : Error} {outcome : Except Error Unit}
    (hplan : m.plan w.snapshot = .ok plan)
    (hforward : (k.forward plan).run (w.observe (.entered m.span)) = (.ok (.error e, made), w₁))
    (hundo : (k.undo plan made).run (w₁.notice (.compensating m.operation e)) = (outcome, w₂)) :
    k.undoing? m w = some outcome := by
  unfold undoing?
  simp only [hplan, hforward, hundo]

end Undoing

def moments : List Call → World σ → List (Moment σ)
  | [], _ => []
  | call :: rest, w => ⟨call, w⟩ :: moments rest ((k.perform call).run w).2

def result (t : Moment σ) : Except Error Reply :=
  ((k.perform t.call).run t.state).1

def after (t : Moment σ) : World σ :=
  ((k.perform t.call).run t.state).2

def succeeds (t : Moment σ) : Bool :=
  t.call.isMutation && (k.result t).isOk

def breaksOff (t : Moment σ) : Bool :=
  t.call.isMutation && (t.call.refusal? t.state.snapshot).isNone && !(k.result t).isOk

def undoingFails (t : Moment σ) : Bool :=
  (t.call.mutation?.bind (k.undoing? · t.state)).any (!·.isOk)

def report? (t : Moment σ) : Option (String × Error) :=
  match t.call.operation?, k.result t with
  | some operation, .error e => some (s!"ListsOrchestrator::{operation}", e)
  | _, _ => none

structure Books (t : Moment σ) : Prop where
  committed : (k.after t).tally.committed = t.state.tally.committed + (k.succeeds t).toNat
  rolledBack : (k.after t).tally.rolledBack = t.state.tally.rolledBack + (k.breaksOff t).toNat
  compensationFailures : (k.after t).tally.compensationFailures =
    t.state.tally.compensationFailures + (k.undoingFails t).toNat
  reports : (k.after t).reports = t.state.reports ++ (k.report? t).toList

section Mutations

variable {k} {call : Call} {m : Mutation}

theorem operation_mutation? (hm : call.mutation? = some m) :
    call.operation? = some m.operation := by
  cases call with
  | createList list => cases hm; rfl
  | updateList list => cases hm; rfl
  | deleteList id => cases hm; rfl
  | clearAll => cases hm; rfl
  | addItem listId item => cases hm; rfl
  | updateItem listId item => cases hm; rfl
  | removeItem listId itemId => cases hm; rfl
  | addItems listId items => cases hm; rfl
  | _ => cases hm

theorem mutation?_eq_none (h : call.isMutation = false) : call.mutation? = none := by
  cases hm : call.mutation? with
  | none => rfl
  | some m =>
    rw [Call.isMutation_of_mutation? hm] at h
    cases h

theorem refusal?_eq_none (hm : call.mutation? = some m) {s : Snapshot} {plan : Plan}
    (hplan : m.plan s = .ok plan) : call.refusal? s = none := by
  have h := Call.plan_of_refusal? hm s
  cases hrefusal : call.refusal? s with
  | none => rfl
  | some e =>
    rw [hrefusal] at h
    cases hplan.symm.trans h

theorem refusal?_eq_some (hm : call.mutation? = some m) {s : Snapshot} {e : Error}
    (hplan : m.plan s = .error e) : call.refusal? s = some e := by
  have h := Call.plan_of_refusal? hm s
  cases hrefusal : call.refusal? s with
  | none =>
    rw [hrefusal] at h
    obtain ⟨_, hok⟩ := h
    cases hplan.symm.trans hok
  | some e' =>
    rw [hrefusal] at h
    cases hplan.symm.trans h
    rfl

theorem sameBooks_forward (hk : k.gateway.Bookless) (plan : Plan) (w : World σ) :
    World.SameBooks w ((k.forward plan).run w).2 := by
  apply Act.Only.sameBooks
  apply all_forward (Act.built_only _) hk
  exact Act.only_atomic fun w => w.sameBooks_publish _

theorem sameBooks_undo (hk : k.gateway.Bookless) (plan : Plan) (made : Nat) (w : World σ) :
    World.SameBooks w ((k.undo plan made).run w).2 := by
  apply Act.Only.sameBooks
  apply all_undo (Act.built_only _) hk
  intro edit _
  exact Act.only_atomic fun w => w.sameBooks_publish edit

theorem books_mutation (hk : k.gateway.Bookless) {t : Moment σ} (hm : t.call.mutation? = some m) :
    k.Books t := by
  have hmutation := Call.isMutation_of_mutation? hm
  have hoperation := operation_mutation? hm
  have hentered : World.SameBooks t.state (t.state.observe (.entered m.span)) :=
    t.state.sameBooks_observe rfl
  have hforth {plan : Plan} {outcome} {w₁ : World σ}
      (h : (k.forward plan).run (t.state.observe (.entered m.span)) = (outcome, w₁)) :
      World.SameBooks t.state w₁ := by
    have hforward := sameBooks_forward hk plan (t.state.observe (.entered m.span))
    rw [h] at hforward
    exact hentered.trans hforward
  have hproceeds : k.Proceeds m t.state (k.result t) (k.after t) := proceeds_perform hm t.state
  generalize hresult : k.result t = result at hproceeds
  generalize hafter : k.after t = w' at hproceeds
  cases hproceeds with
  | refused hplan =>
    have hundoing := undoing?_of_refused (k := k) hplan
    constructor
    · simp [succeeds, hafter, hresult, hentered.tally, Except.isOk, Except.toBool]
    · simp [breaksOff, hafter, refusal?_eq_some hm hplan, hentered.tally]
    · simp [undoingFails, hafter, hm, hundoing, hentered.tally]
    · simp [report?, hafter, hresult, hoperation, hentered.reports]
  | committed hplan hforward =>
    have hundoing := undoing?_of_committed hplan hforward
    have hbooks := hforth hforward
    constructor
    · simp [succeeds, hafter, hresult, hmutation, hbooks.tally, Tally.commit, Except.isOk,
        Except.toBool]
    · simp [breaksOff, hafter, hresult, hbooks.tally, Tally.commit, Except.isOk, Except.toBool]
    · simp [undoingFails, hafter, hm, hundoing, hbooks.tally, Tally.commit]
    · simp [report?, hafter, hresult, hoperation, hbooks.reports]
  | @rolledBack plan e made outcome w₁ w₂ hplan hforward hundo =>
    have hundoing := undoing?_of_rolledBack hplan hforward hundo
    have hback := sameBooks_undo hk plan made (w₁.notice (.compensating m.operation e))
    rw [hundo] at hback
    have hbooks : World.SameBooks t.state w₂ :=
      ((hforth hforward).trans (w₁.sameBooks_observe rfl)).trans hback
    constructor
    · simp [succeeds, hafter, hresult, hbooks.tally, Except.isOk, Except.toBool]
    · simp [breaksOff, hafter, hresult, hmutation, refusal?_eq_none hm hplan, hbooks.tally,
        Except.isOk, Except.toBool]
    · simp [undoingFails, hafter, hm, hundoing, hbooks.tally]
    · simp [report?, hafter, hresult, hoperation, hbooks.reports]

theorem breaksOff_of_undoingFails {t : Moment σ} (h : k.undoingFails t = true) :
    k.breaksOff t = true := by
  unfold undoingFails at h
  cases hm : t.call.mutation? with
  | none =>
    rw [hm] at h
    cases h
  | some m =>
    rw [hm, Option.bind_some] at h
    have hmutation := Call.isMutation_of_mutation? hm
    have hproceeds : k.Proceeds m t.state (k.result t) (k.after t) := proceeds_perform hm t.state
    generalize hresult : k.result t = result at hproceeds
    generalize k.after t = w' at hproceeds
    cases hproceeds with
    | refused hplan =>
      rw [undoing?_of_refused hplan] at h
      cases h
    | committed hplan hforward =>
      rw [undoing?_of_committed hplan hforward] at h
      cases h
    | rolledBack hplan hforward hcompensation =>
      simp [breaksOff, hmutation, refusal?_eq_none hm hplan, hresult, Except.isOk, Except.toBool]

end Mutations

section Others

variable {k} {t : Moment σ}

theorem books_of_tally (hmutation : t.call.isMutation = false)
    (htally : (k.after t).tally = t.state.tally)
    (hreports : (k.after t).reports = t.state.reports ++ (k.report? t).toList) : k.Books t := by
  have hm : t.call.mutation? = none := mutation?_eq_none hmutation
  constructor
  · simp [succeeds, hmutation, htally]
  · simp [breaksOff, hmutation, htally]
  · simp [undoingFails, hm, htally]
  · exact hreports

theorem books_loadAll (hk : k.gateway.Bookless) (w : World σ) : k.Books ⟨.loadAll, w⟩ := by
  have hreading : World.SameBooks w (reading w) :=
    (w.sameBooks_observe rfl).trans (World.sameBooks_publish _ _)
  have hfetch := hreading.trans (Act.Only.sameBooks (all_fetchAll (Act.built_only _) hk) (reading w))
  have hrun := run_loadAll k w
  rw [Act.run_bind, Act.run_outcome] at hrun
  generalize k.fetchAll.run (reading w) = fetched at hrun hfetch
  obtain ⟨e | lists, w₁⟩ := fetched
  · have hresult : k.result ⟨.loadAll, w⟩ = .error e := congrArg Prod.fst hrun
    have hafter : k.after ⟨.loadAll, w⟩ =
        (w₁.observe (.reported "ListsOrchestrator::load_all" e)).publish
          fun d => { d with error := some e.userMessage, loading := false } :=
      congrArg Prod.snd hrun
    apply books_of_tally rfl
    · rw [hafter]
      exact hfetch.tally
    · rw [hafter, World.reports_publish, World.reports_observe, hfetch.reports, report?, hresult]
      rfl
  · have hresult : ∃ reply, k.result ⟨.loadAll, w⟩ = .ok reply := ⟨_, congrArg Prod.fst hrun⟩
    have hafter : ∃ edit n, k.after ⟨.loadAll, w⟩ = (w₁.publish edit).notice n :=
      ⟨_, _, congrArg Prod.snd hrun⟩
    obtain ⟨reply, hresult⟩ := hresult
    obtain ⟨edit, n, hafter⟩ := hafter
    apply books_of_tally rfl
    · rw [hafter]
      exact hfetch.tally
    · rw [hafter, World.reports_notice, World.reports_publish, hfetch.reports, report?, hresult]
      exact (List.append_nil _).symm

theorem books_of_publish {call : Call} (hmutation : call.isMutation = false)
    (hload : call ≠ .loadAll) (w : World σ) : k.Books ⟨call, w⟩ := by
  have hpublish (edit : Draft → Draft) :
      (do return .version (← Act.publish edit).version : Act (World σ) Reply).Only
        World.SameBooks :=
    (Act.built_only _).bind (Act.only_atomic fun w => w.sameBooks_publish edit) fun _ => trivial
  have hbooks (h : (k.perform call).Only World.SameBooks) (hoperation : call.operation? = none) :
      k.Books ⟨call, w⟩ := by
    apply books_of_tally (k := k) (t := ⟨call, w⟩) hmutation (h.sameBooks w).tally
    rw [report?, hoperation]
    exact (h.sameBooks w).reports.trans (List.append_nil _).symm
  cases call with
  | loadAll => exact absurd rfl hload
  | reset => exact hbooks (hpublish _) rfl
  | setQuery query => exact hbooks (hpublish _) rfl
  | setTopic topic => exact hbooks (hpublish _) rfl
  | setShowCompleted shown => exact hbooks (hpublish _) rfl
  | setShowInProgress shown => exact hbooks (hpublish _) rfl
  | setPeriod period => exact hbooks (hpublish _) rfl
  | setPeriodText text =>
    apply hbooks _ rfl
    simp only [perform, setPeriodText]
    split
    · exact hpublish _
    · split
      · exact hpublish _
      · exact trivial
  | setOrder order => exact hbooks (hpublish _) rfl
  | resetCriteria => exact hbooks (hpublish _) rfl
  | _ => cases hmutation

theorem books (hk : k.gateway.Bookless) (t : Moment σ) : k.Books t := by
  by_cases hmutation : t.call.isMutation = true
  · obtain ⟨m, hm⟩ := Call.exists_mutation hmutation
    exact books_mutation hk hm
  · rw [Bool.not_eq_true] at hmutation
    obtain ⟨call, w⟩ := t
    by_cases hload : call = .loadAll
    · subst hload
      exact books_loadAll hk w
    · exact books_of_publish hmutation hload w

end Others

section Run

variable {k}

theorem count_run (number : World σ → Nat) {p : Moment σ → Bool}
    (h : ∀ t, number (k.after t) = number t.state + (p t).toNat) (calls : List Call)
    (w : World σ) : number (k.run calls w) = number w + (k.moments calls w).countP p := by
  induction calls generalizing w with
  | nil => rfl
  | cons call rest ih =>
    have hstep := h ⟨call, w⟩
    have hrest := ih (k.after ⟨call, w⟩)
    have hmoments : k.moments (call :: rest) w =
        ⟨call, w⟩ :: k.moments rest (k.after ⟨call, w⟩) := rfl
    rw [hmoments, List.countP_cons]
    show number (k.run rest (k.after ⟨call, w⟩)) = _
    cases hp : p ⟨call, w⟩ with
    | false => simp [hp] at hstep ⊢; omega
    | true => simp [hp] at hstep ⊢; omega

theorem reports_run (hk : k.gateway.Bookless) (calls : List Call) (w : World σ) :
    (k.run calls w).reports = w.reports ++ (k.moments calls w).filterMap k.report? := by
  induction calls generalizing w with
  | nil => exact (List.append_nil _).symm
  | cons call rest ih =>
    have hstep := (books hk ⟨call, w⟩).reports
    have hmoments : k.moments (call :: rest) w =
        ⟨call, w⟩ :: k.moments rest (k.after ⟨call, w⟩) := rfl
    calc (k.run (call :: rest) w).reports
      _ = (k.after ⟨call, w⟩).reports ++
            (k.moments rest (k.after ⟨call, w⟩)).filterMap k.report? := ih _
      _ = w.reports ++ (k.moments (call :: rest) w).filterMap k.report? := by
        rw [hstep, hmoments, List.filterMap_cons, List.append_assoc]
        cases k.report? ⟨call, w⟩ <;> rfl

end Run

/--
A call is refused at once. No other storage would make a difference, so it is not called.
-/
structure Refuses (t : Moment σ) (e : Error) : Prop where
  missing : ∃ kind id, e = .notFound kind id
  result : k.result t = .error e
  tally : (k.after t).tally = t.state.tally
  storage : (k.after t).storage = t.state.storage
  unasked : ∀ gateway : Gateway (World σ),
    (Keeper.perform ⟨k.config, gateway⟩ t.call).run t.state = (k.perform t.call).run t.state

section Refusal

variable {k} {t : Moment σ} {e : Error}

theorem isMutation_of_refusal? (h : t.call.refusal? t.state.snapshot = some e) :
    t.call.isMutation = true := by
  cases hcall : t.call with
  | createList list => rfl
  | updateList list => rfl
  | deleteList id => rfl
  | clearAll => rfl
  | addItem listId item => rfl
  | updateItem listId item => rfl
  | removeItem listId itemId => rfl
  | addItems listId items => rfl
  | _ =>
    rw [hcall] at h
    cases h

theorem missing_of_refusal? {call : Call} {s : Snapshot} (h : call.refusal? s = some e) :
    ∃ kind id, e = .notFound kind id := by
  have hlist {id : String} (h : s.missingList? id = some e) : ∃ kind id, e = .notFound kind id := by
    unfold Snapshot.missingList? at h
    split at h
    · cases h
    · cases h
      exact ⟨_, _, rfl⟩
  cases call with
  | deleteList id => exact hlist h
  | addItem listId item => exact hlist h
  | updateItem listId item => exact hlist h
  | addItems listId items => exact hlist h
  | removeItem listId itemId =>
    simp only [Call.refusal?] at h
    split at h
    · split at h
      · cases h
      · cases h
        exact ⟨_, _, rfl⟩
    · cases h
      exact ⟨_, _, rfl⟩
  | _ => cases h

theorem run_refused {m : Mutation} (hm : t.call.mutation? = some m)
    (h : t.call.refusal? t.state.snapshot = some e) :
    (k.perform t.call).run t.state =
      (.error e, (t.state.observe (.entered m.span)).reporting m.operation e) := by
  have hplan := Call.plan_of_refusal? hm t.state.snapshot
  rw [h] at hplan
  rw [perform_eq_carryOut hm]
  exact (Proceeds.refused hplan).run_carryOut

theorem refuses (h : t.call.refusal? t.state.snapshot = some e) : k.Refuses t e := by
  obtain ⟨m, hm⟩ := Call.exists_mutation (isMutation_of_refusal? h)
  have hrun := run_refused (k := k) hm h
  have hafter : k.after t = (t.state.observe (.entered m.span)).reporting m.operation e :=
    congrArg Prod.snd hrun
  refine ⟨missing_of_refusal? h, congrArg Prod.fst hrun, ?_, ?_, ?_⟩
  · rw [hafter]
    rfl
  · rw [hafter]
    rfl
  · intro gateway
    rw [run_refused hm h, hrun]

end Refusal

/--
The books after a run of the given calls. The counts follow from the results of the calls, the
reports are those of the calls that failed, each in its turn, and calls that are refused at once
leave the counts and storage alone.
-/
structure KeepsAccounts (ts : List (Moment σ)) (w : World σ) : Prop where
  committed : w.tally.committed = ts.countP k.succeeds
  rolledBack : w.tally.rolledBack = ts.countP k.breaksOff
  compensationFailures : w.tally.compensationFailures = ts.countP k.undoingFails
  bounded : w.tally.compensationFailures ≤ w.tally.rolledBack
  reports : w.reports = ts.filterMap k.report?
  proceeds : ∀ t ∈ ts, t.call.isMutation = true →
    ∃ m, t.call.mutation? = some m ∧ k.Proceeds m t.state (k.result t) (k.after t)
  refused : ∀ t ∈ ts, ∀ e, t.call.refusal? t.state.snapshot = some e → k.Refuses t e

theorem run_keepsAccounts (hk : k.gateway.Bookless) (now : Timestamp) (storage : σ)
    (calls : List Call) :
    k.KeepsAccounts (k.moments calls (World.initial now storage))
      (k.run calls (World.initial now storage)) := by
  have hcommitted := count_run (·.tally.committed) (fun t => (books hk t).committed)
    calls (World.initial now storage)
  have hrolledBack := count_run (·.tally.rolledBack) (fun t => (books hk t).rolledBack)
    calls (World.initial now storage)
  have hfailures := count_run (·.tally.compensationFailures)
    (fun t => (books hk t).compensationFailures) calls (World.initial now storage)
  refine ⟨?_, ?_, ?_, ?_, ?_, ?_, ?_⟩
  · exact hcommitted.trans (Nat.zero_add _)
  · exact hrolledBack.trans (Nat.zero_add _)
  · exact hfailures.trans (Nat.zero_add _)
  · rw [hfailures, hrolledBack]
    exact Nat.add_le_add_left (List.countP_mono_left fun _ _ => breaksOff_of_undoingFails) 0
  · rw [reports_run hk]
    exact List.nil_append _
  · intro t _ hmutation
    obtain ⟨m, hm⟩ := Call.exists_mutation hmutation
    exact ⟨m, hm, proceeds_perform hm t.state⟩
  · intro t _ e h
    exact refuses h

/--
A list is created and an item is added to one that there is not. Then storage removes the list but
says that it failed, refuses to take it back, and cannot be read.
-/
theorem run_keepsAccounts_halfUndone :
    let k : Keeper FaultyStore := ⟨.initial, FaultyStore.gateway.within⟩
    let broken := Error.persistence "delete_list" "disk full"
    let storage : FaultyStore :=
      ⟨.empty, [.served, .served, .lost broken, .refused broken, .refused broken]⟩
    let calls := [.createList (Checklist.create "a" "Tea" .epoch),
      .addItem "b" (Item.create "i" "Milk" "b" .epoch), .deleteList "a", .loadAll]
    let w := k.run calls (World.initial .epoch storage)
    k.gateway.Bookless ∧ w.tally = ⟨1, 1, 1⟩ ∧
      w.reports = [("ListsOrchestrator::add_item", .notFound "list" "b"),
        ("ListsOrchestrator::delete_list", broken), ("ListsOrchestrator::load_all", broken)] ∧
      k.KeepsAccounts (k.moments calls (World.initial .epoch storage)) w := by
  intro k broken storage calls w
  have hk : k.gateway.Bookless := Gateway.bookless_within _
  exact ⟨hk, by decide +kernel, by decide +kernel, run_keepsAccounts k hk .epoch storage calls⟩

end Keeper
end ListKeeper
