import ListKeeper.Proofs.Queue.Story
import Mathlib.Order.Bounds.Defs
import Mathlib.Data.Nat.Find

/-!
This module contains how often the work of an operation is called, what is written to the log about
it, and how it is recorded. All that follows from the operation and from how its attempts end,
whatever else happens in the queue.
-/

namespace ListKeeper

def Attempt.isFailure : Attempt α → Bool
  | .failed _ => true
  | _ => false

def Attempt.isSuccess : Attempt α → Bool
  | .succeeded _ => true
  | _ => false

namespace Operation

variable (op : Operation ω) (plan : Nat → Attempt α)

def finalAttempts : Set Nat :=
  {i | 0 < i ∧ (i = op.maxRetries.toNat + 1 ∨ (plan i).isFailure = false)}

theorem exists_isLeast_finalAttempts : ∃ n, IsLeast (op.finalAttempts plan) n := by
  have hsome : ∃ i, 0 < i ∧ (i = op.maxRetries.toNat + 1 ∨ (plan i).isFailure = false) :=
    ⟨op.maxRetries.toNat + 1, Nat.succ_pos _, .inl rfl⟩
  exact ⟨Nat.find hsome, Nat.find_spec hsome, fun i hi => Nat.find_min' hsome hi⟩

def farewell (attempts : UInt32) : Attempt α → List Notice
  | .succeeded _ => if 1 < attempts then [.recovered op.id op.name attempts] else []
  | .failed error => [.exhausted
    { op.ref with attempt := attempts, maxRetries := op.maxRetries, error := error }]
  | .crashed => [.crashed op.id op.name]

variable {op plan}

theorem countP_warnings (op : Operation ω) (errors : List String) (level : Level) :
    (op.warnings errors).countP (·.entry.level = level) =
      if level = .warning then errors.length else 0 := by
  have hlevel (notice : Notice) (hmem : notice ∈ op.warnings errors) :
      notice.entry.level = .warning := by
    obtain ⟨i, hi, rfl⟩ := List.mem_mapIdx.1 hmem
    rfl
  split
  · next h =>
    have hlength : (op.warnings errors).length = errors.length := List.length_mapIdx
    rw [← hlength, List.countP_eq_length]
    intro notice hmem
    rw [hlevel notice hmem, h, decide_eq_true_eq]
  · next h =>
    rw [List.countP_eq_zero]
    intro notice hmem
    rw [hlevel notice hmem, decide_eq_true_eq]
    exact Ne.symm h

theorem countP_farewell (op : Operation ω) (attempts : UInt32) (last : Attempt α) (level : Level) :
    (op.farewell attempts last).countP (·.entry.level = level) =
      if level = .error ∧ last.isSuccess = false ∨
        level = .info ∧ last.isSuccess = true ∧ 1 < attempts then 1 else 0 := by
  cases last with
  | succeeded value =>
    by_cases hmany : 1 < attempts
    · cases level <;> simp [farewell, hmany, Notice.entry, Attempt.isSuccess]
    · cases level <;> simp [farewell, hmany, Attempt.isSuccess]
  | failed error => cases level <;> simp [farewell, Notice.entry, Attempt.isSuccess]
  | crashed => cases level <;> simp [farewell, Notice.entry, Attempt.isSuccess]

theorem lt_of_isLeast {n : Nat} (hn : IsLeast (op.finalAttempts plan) n) {m : Nat}
    (hallowed : m ≤ op.maxRetries.toNat)
    (hfailed : ∀ i, 0 < i → i ≤ m → (plan i).isFailure = true) : m < n := by
  obtain ⟨⟨hpos, hfinal⟩, _⟩ := hn
  apply Nat.lt_of_not_le
  intro hle
  rcases hfinal with hlast | hdecided
  · omega
  · rw [hfailed n hpos hle] at hdecided
    contradiction

end Operation

theorem Running.notices_eq_farewell {r : Running ω} {last : Attempt α} {notices : List Notice}
    {ending : Ending α} (h : r.verdict last = .over notices ending) :
    notices = r.operation.farewell r.attempts last := by
  cases last with
  | succeeded value =>
    cases h
    rfl
  | crashed =>
    cases h
    rfl
  | failed error =>
    simp only [verdict] at h
    split at h
    · cases h
      rfl
    · contradiction

namespace Dossier

variable {d : Dossier α} {plan : Nat → Attempt α}

theorem Follows.outcomes_getElem (h : d.Follows plan) {i : Nat} (hi : i < d.outcomes.length) :
    d.outcomes[i]? = some (plan (i + 1)) := by
  unfold Follows at h
  rw [h, List.getElem?_map, List.getElem?_range' (by simpa using hi)]
  simp [Nat.add_comm]

theorem Follows.isFailure (h : d.Follows plan) {errors : List String} {rest : List (Attempt α)}
    (houtcomes : d.outcomes = errors.map .failed ++ rest) {i : Nat} (hpos : 0 < i)
    (hi : i ≤ errors.length) : (plan i).isFailure = true := by
  have hlength : i - 1 < d.outcomes.length := by
    rw [houtcomes, List.length_append, List.length_map]
    omega
  have hplanned := h.outcomes_getElem hlength
  rw [houtcomes, List.getElem?_append_left (by simp; omega), List.getElem?_map,
    List.getElem?_eq_getElem (by omega), Nat.sub_add_cancel hpos] at hplanned
  rw [← Option.some.inj hplanned]
  rfl

theorem Follows.finish (h : d.Follows plan) (now : Timestamp) (r : Running ω) :
    (d.finish now r (plan (d.outcomes.length + 1))).Follows plan := by
  unfold Follows at h ⊢
  simp only [Dossier.finish, List.length_append, List.length_singleton]
  rw [List.range'_concat, List.map_append, ← h, Nat.one_mul, Nat.add_comm 1]
  rfl

def RecordedAs (d : Dossier α) (op : Operation ω) (status : Status) (attempts : Nat)
    (error : Option String) : Prop :=
  ∃ record, d.records = [record] ∧ record.id = op.id ∧ record.name = op.name ∧
    record.status = status ∧ record.attempts.toNat = attempts ∧ record.error = error

end Dossier

/--
How an operation has ended whose attempts follow a plan and of which the one with number `n` was the
last: what is said about it, and the result that its caller has got.
-/
structure Operation.Concluded (op : Operation ω) (d : Dossier α)
    (result : Option (Except Error α)) (plan : Nat → Attempt α) (n : Nat) : Prop where
  invoked : d.invocations = n
  followed : d.outcomes = (List.range' 1 n).map plan
  succeeded : ∀ value, plan n = .succeeded value →
    result = some (.ok value) ∧ d.RecordedAs op .completed n none
  exhausted : ∀ error, plan n = .failed error → n = op.maxRetries.toNat + 1 ∧
    result = some (.error (.retriesExhausted op.name (op.maxRetries + 1) error)) ∧
      d.RecordedAs op .failed n (some error)
  crashed : plan n = .crashed →
    result = some (.error op.loss) ∧ d.RecordedAs op .failed n (some "operation panicked")
  told : ∃ errors, (List.range' 1 (n - 1)).map plan = errors.map .failed ∧
    d.told = op.warnings errors ++ op.farewell (.ofNat n) (plan n)
  warnings : d.entries .warning = n - 1
  errors : d.entries .error = if (plan n).isSuccess then 0 else 1
  recovery : d.entries .info = if (plan n).isSuccess ∧ 1 < n then 1 else 0

namespace Running.Over

variable {r : Running ω} {ending : Ending α} {d : Dossier α} {errors : List String}
  {last : Attempt α} {plan : Nat → Attempt α} {n : Nat}

theorem length_outcomes (h : r.Over ending d errors last) :
    d.outcomes.length = errors.length + 1 := by
  rw [h.outcomes, List.length_append, List.length_map, List.length_singleton]

theorem plan_last (h : r.Over ending d errors last) (hplan : d.Follows plan) :
    plan (errors.length + 1) = last := by
  have hlength := h.length_outcomes
  have hplanned := hplan.outcomes_getElem (i := errors.length) (by omega)
  rw [h.outcomes, List.getElem?_append_right (by simp)] at hplanned
  simpa using hplanned.symm

theorem plan_before (h : r.Over ending d errors last) (hplan : d.Follows plan) :
    (List.range' 1 errors.length).map plan = errors.map .failed := by
  have houtcomes := h.outcomes
  unfold Dossier.Follows at hplan
  rw [hplan, h.length_outcomes, List.range'_concat, List.map_append] at houtcomes
  exact (List.append_inj' houtcomes rfl).1

theorem exhausted (h : r.Over ending d errors last) {error : String}
    (hlast : last = .failed error) : errors.length = r.operation.maxRetries.toNat := by
  subst hlast
  obtain ⟨notices, hverdict⟩ := h.verdict
  have hspent := lt_attempts_of_over hverdict
  have hallowed := h.allowed
  have hattempts := h.attempts
  omega

theorem eq_of_isLeast (h : r.Over ending d errors last) (hplan : d.Follows plan)
    (hn : IsLeast (r.operation.finalAttempts plan) n) : n = errors.length + 1 := by
  have hfinal : errors.length + 1 ∈ r.operation.finalAttempts plan := by
    refine ⟨Nat.succ_pos _, ?_⟩
    rw [h.plan_last hplan]
    cases hlast : last with
    | succeeded value => exact .inr rfl
    | crashed => exact .inr rfl
    | failed error => exact .inl (congrArg (· + 1) (h.exhausted hlast))
  -- No attempt before the last one can have been final, since all of them have failed.
  have hle := hn.2 hfinal
  have hlt := Operation.lt_of_isLeast hn h.allowed fun i => hplan.isFailure h.outcomes
  omega

theorem attempts_eq (h : r.Over ending d errors last) :
    r.attempts = .ofNat (errors.length + 1) := by
  rw [← h.attempts, UInt32.ofNat_toNat]

theorem one_lt_iff (h : r.Over ending d errors last) :
    (1 : UInt32) < .ofNat (errors.length + 1) ↔ 1 < errors.length + 1 := by
  rw [← h.attempts_eq, UInt32.lt_iff_toNat_lt, h.attempts]
  rfl

theorem told_eq (h : r.Over ending d errors last) :
    d.told = r.operation.warnings errors ++
      r.operation.farewell (.ofNat (errors.length + 1)) last := by
  obtain ⟨notices, hverdict⟩ := h.verdict
  rw [h.told, hverdict, ← h.attempts_eq]
  exact congrArg _ (notices_eq_farewell hverdict)

theorem entries_eq (h : r.Over ending d errors last) (level : Level) :
    d.entries level = (if level = .warning then errors.length else 0) +
      (r.operation.farewell (.ofNat (errors.length + 1)) last).countP
        (·.entry.level = level) := by
  unfold Dossier.entries
  rw [h.told_eq, List.countP_append, Operation.countP_warnings]

theorem recordedAs (h : r.Over ending d errors last) :
    d.RecordedAs r.operation ending.status (errors.length + 1) ending.error := by
  obtain ⟨now, hrecords⟩ := h.records
  exact ⟨_, hrecords, rfl, rfl, rfl, h.attempts, rfl⟩

theorem concluded (h : r.Over ending d errors last) (hplan : d.Follows plan)
    (hn : IsLeast (r.operation.finalAttempts plan) n) :
    r.operation.Concluded d (some ending.result) plan n := by
  have hlast := h.plan_last hplan
  have hrecorded := h.recordedAs
  have hentries := h.entries_eq
  have hmany := h.one_lt_iff
  obtain ⟨notices, hverdict⟩ := h.verdict
  obtain rfl := h.eq_of_isLeast hplan hn
  refine ⟨h.invocations, ?_, ?_, ?_, ?_, ⟨errors, h.plan_before hplan, ?_⟩, ?_, ?_, ?_⟩
  · rw [← h.length_outcomes]
    exact hplan
  · intro value hvalue
    obtain rfl := hlast.symm.trans hvalue
    cases hverdict
    exact ⟨rfl, hrecorded⟩
  · intro error herror
    obtain rfl := hlast.symm.trans herror
    have hall := h.exhausted rfl
    have hattempts : r.attempts = r.operation.maxRetries + 1 := by
      rw [h.attempts_eq, hall, UInt32.ofNat_add, UInt32.ofNat_toNat]
      rfl
    simp only [Running.verdict] at hverdict
    split at hverdict
    · cases hverdict
      rw [← hattempts]
      exact ⟨congrArg (· + 1) hall, rfl, hrecorded⟩
    · contradiction
  · intro hcrashed
    obtain rfl := hlast.symm.trans hcrashed
    cases hverdict
    exact ⟨rfl, hrecorded⟩
  · rw [hlast]
    exact h.told_eq
  · simp [hentries, Operation.countP_farewell]
  · cases hsuccess : last.isSuccess with
    | true => simp [hentries, Operation.countP_farewell, hlast, hsuccess]
    | false => simp [hentries, Operation.countP_farewell, hlast, hsuccess]
  · cases hsuccess : last.isSuccess with
    | true =>
      simp only [hentries, Operation.countP_farewell, hlast, hsuccess, hmany]
      simp
    | false => simp [hentries, Operation.countP_farewell, hlast, hsuccess]

end Running.Over

namespace Chronicle

/--
The story of an operation whose attempts follow a plan, when the one with number `n` is the first
one after which it is over: its work is never called more often, it is concluded when it has ended,
and until then it can be brought to its end. The records are those from which the queue makes its
history.
-/
structure Retries (x : Chronicle ω α) (op : Operation ω) (plan : Nat → Attempt α) (n : Nat) :
    Prop where
  bounded : (x.dossier op.ticket).invocations ≤ n
  concluded : op ∈ x.books.ended.map (·.1.operation) →
    op.Concluded (x.dossier op.ticket) (x.queue.result? op.ticket) plan n
  canEnd : ∃ x', Relation.ReflTransGen Step x x' ∧ (x'.dossier op.ticket).Follows plan ∧
    op ∈ x'.books.ended.map (·.1.operation)
  history : x.queue.history = Queue.keepLast x.queue.config.maxHistory.toNat
    ((x.records.drop x.forgotten).map (·.2))

section Story

variable {config : QueueConfig} {x : Chronicle ω α} {op : Operation ω} {plan : Nat → Attempt α}
  {n : Nat}

theorem Reachable.concluded (h : x.Reachable config) (hcountable : op.Countable)
    (hplan : (x.dossier op.ticket).Follows plan) (hn : IsLeast (op.finalAttempts plan) n)
    (hended : op ∈ x.books.ended.map (·.1.operation)) :
    op.Concluded (x.dossier op.ticket) (x.queue.result? op.ticket) plan n := by
  have haccounted := h.course.accounted
  obtain ⟨⟨r, ending⟩, hmem, rfl⟩ := List.mem_map.1 hended
  obtain ⟨errors, last, hover⟩ := h.tracked.ended r ending hmem hcountable
  have henqueued := haccounted.mem_of_started (haccounted.started_of_ended hmem)
  have hresult : x.queue.result? r.operation.ticket = some ending.result :=
    (haccounted.result?_eq_some_iff henqueued _).2 (.inl ⟨r, ending, hmem, rfl, rfl⟩)
  rw [hresult]
  exact hover.concluded hplan hn

theorem Reachable.bounded (h : x.Reachable config) (hop : op ∈ x.books.started)
    (hcountable : op.Countable) (hplan : (x.dossier op.ticket).Follows plan)
    (hn : IsLeast (op.finalAttempts plan) n) : (x.dossier op.ticket).invocations ≤ n := by
  rcases List.mem_append.1 (h.course.accounted.slots.mem_iff.1 hop) with hrunning | hended
  · obtain ⟨r, hr, rfl⟩ := List.mem_map.1 hrunning
    obtain ⟨errors, hunderway⟩ := h.tracked.running r hr hcountable
    have houtcomes : (x.dossier r.ticket).outcomes = errors.map .failed ++ [] := by
      rw [List.append_nil]
      exact hunderway.outcomes
    have hlt := Operation.lt_of_isLeast hn hunderway.allowed fun i => hplan.isFailure houtcomes
    have hinvocations := hunderway.invocations
    have hworking := (x.dossier r.ticket).working.toNat_le
    show (x.dossier r.ticket).invocations ≤ n
    omega
  · exact Nat.le_of_eq (h.concluded hcountable hplan hn hended).invoked

theorem mem_running_invoke {r : Running ω} (hr : r ∈ x.queue.running) :
    { r with attempts := r.attempts + 1 } ∈ (x.silently (x.course.invoke r)).queue.running := by
  apply List.mem_map.2
  exact ⟨r, hr, if_pos rfl⟩

theorem Reachable.exists_ended_of_working (h : x.Reachable config) {r : Running ω}
    (hr : r ∈ x.queue.running) (hbusy : r.ticket ∈ x.course.working)
    (hcountable : r.operation.Countable) (hplan : (x.dossier r.ticket).Follows plan) :
    ∃ x', Relation.ReflTransGen Step x x' ∧ (x'.dossier r.ticket).Follows plan ∧
      r.operation ∈ x'.books.ended.map (·.1.operation) := by
  -- The induction is on the retries that are left: after an attempt that fails and is not the last
  -- one, the work is called again.
  induction hleft : r.operation.maxRetries.toNat - (x.dossier r.ticket).outcomes.length
    using Nat.strong_induction_on generalizing x r with
  | _ left ih =>
  obtain ⟨errors, hunderway⟩ := h.tracked.running r hr hcountable
  have hlength : (x.dossier r.ticket).outcomes.length = errors.length := by
    rw [hunderway.outcomes, List.length_map]
  have hattempts := hunderway.attempts_eq (decide_eq_true hbusy)
  let attempt := plan ((x.dossier r.ticket).outcomes.length + 1)
  let x₁ := x.finish .epoch r attempt
  have hstep : x.Step x₁ := .finish x r attempt .epoch hr hbusy
  have hdossier : x₁.dossier r.ticket = (x.dossier r.ticket).finish .epoch r attempt := by
    rw [x.dossier_finish r.ticket h.tracked.working .epoch r attempt, if_pos rfl]
  have hplan₁ : (x₁.dossier r.ticket).Follows plan := by
    rw [hdossier]
    exact hplan.finish .epoch r
  have hbooks : x₁.books = _ := x.course.books_finish .epoch r attempt
  have hqueue : x₁.queue = (x.course.finish r attempt .epoch).queue := rfl
  unfold Course.finish at hqueue
  rcases hverdict : r.verdict attempt with failure | ⟨notices, ending⟩
  · simp only [hverdict] at hqueue
    have hr₁ : r ∈ x₁.queue.running := hqueue ▸ hr
    have hidle : r.ticket ∉ x₁.course.working := by
      rw [(x.finish_parts .epoch r attempt).1]
      exact h.tracked.working.not_mem_erase
    have hinvoked : x₁.Step (x₁.silently (x₁.course.invoke r)) := .invoke x₁ r hr₁ hidle
    have hdossier₂ : (x₁.silently (x₁.course.invoke r)).dossier r.ticket =
        (x₁.dossier r.ticket).invoke := by
      rw [x₁.dossier_invoke r.ticket r, if_pos rfl]
    obtain ⟨x', hrun, hfollows, hended⟩ := ih
      (r.operation.maxRetries.toNat - ((x.dossier r.ticket).outcomes.length + 1))
      (by
        have hallowed := (Running.verdict_eq_again hverdict).1
        omega)
      ((h.step hstep).step hinvoked) (mem_running_invoke hr₁) List.mem_cons_self hcountable
      (by
        show Dossier.Follows (Chronicle.dossier _ r.ticket) plan
        rw [hdossier₂]
        exact hplan₁)
      (by
        show _ - (Chronicle.dossier _ r.ticket).outcomes.length = _
        rw [hdossier₂, hdossier]
        simp [Dossier.invoke, Dossier.finish])
    exact ⟨x', (Relation.ReflTransGen.head hstep (.head hinvoked hrun)), hfollows, hended⟩
  · refine ⟨x₁, .single hstep, hplan₁, ?_⟩
    simp only [hverdict] at hbooks
    rw [hbooks]
    apply List.mem_map_of_mem (a := (r, ending))
    exact List.mem_append_right _ List.mem_cons_self

theorem Reachable.exists_ended (h : x.Reachable config) (hop : op ∈ x.books.started)
    (hcountable : op.Countable) (hplan : (x.dossier op.ticket).Follows plan) :
    ∃ x', Relation.ReflTransGen Step x x' ∧ (x'.dossier op.ticket).Follows plan ∧
      op ∈ x'.books.ended.map (·.1.operation) := by
  rcases List.mem_append.1 (h.course.accounted.slots.mem_iff.1 hop) with hrunning | hended
  · obtain ⟨r, hr, rfl⟩ := List.mem_map.1 hrunning
    by_cases hbusy : r.ticket ∈ x.course.working
    · exact h.exists_ended_of_working hr hbusy hcountable hplan
    · have hstep : x.Step (x.silently (x.course.invoke r)) := .invoke x r hr hbusy
      have hdossier : (x.silently (x.course.invoke r)).dossier r.ticket =
          (x.dossier r.ticket).invoke := by
        rw [x.dossier_invoke r.ticket r, if_pos rfl]
      have hplan' : ((x.silently (x.course.invoke r)).dossier r.ticket).Follows plan := by
        rw [hdossier]
        exact hplan
      obtain ⟨x', hrun, hfollows, hended⟩ := (h.step hstep).exists_ended_of_working
        (mem_running_invoke hr) List.mem_cons_self hcountable hplan'
      exact ⟨x', .head hstep hrun, hfollows, hended⟩
  · exact ⟨x, .refl, hplan, hended⟩

end Story
end Chronicle

/--
In every state that a queue can get into, by steps in any order, each operation that has started is
retried as its attempts demand: it follows from them alone how often its work is called, what its
caller gets, how it is recorded and what is written to the log.
-/
theorem queue_retries {config : QueueConfig} {x : Chronicle ω α} (h : x.Reachable config)
    {op : Operation ω} (hop : op ∈ x.books.started) (hcountable : op.Countable)
    {plan : Nat → Attempt α} (hplan : (x.dossier op.ticket).Follows plan) :
    ∃ n, IsLeast (op.finalAttempts plan) n ∧ x.Retries op plan n := by
  obtain ⟨n, hn⟩ := op.exists_isLeast_finalAttempts plan
  refine ⟨n, hn, ?_, ?_, ?_, ?_⟩
  · exact h.bounded hop hcountable hplan hn
  · exact h.concluded hcountable hplan hn
  · exact h.exists_ended hop hcountable hplan
  · exact h.history.2

/--
An operation may be retried once. Between its two attempts, which both fail, another one with the
same id is cancelled, and the queue forgets its records.
-/
theorem queue_retries_disturbed :
    let s : Submission Unit := ⟨"sync", some "job", .medium, some 1, none, ()⟩
    let op : Operation Unit := ⟨1, "job", "sync", .medium, 1, .ofMillis 1000, .epoch, ()⟩
    let plan (i : Nat) : Attempt Nat := if i = 1 then .failed "offline" else .failed "busy"
    let first : Chronicle Unit Nat := (Chronicle.initial .initial)
      |>.submit .epoch s ""
      |>.submit .epoch s ""
    let heard := first.silently (first.course.hear .spawn [.wake])
    let started := heard.silently (heard.course.drive .epoch)
    let invoked := started.silently (started.course.invoke ⟨op, .epoch, 0⟩)
    let failed := (invoked.finish .epoch ⟨op, .epoch, 1⟩ (.failed "offline")).cancelAll .epoch
    let again := (failed.silently (failed.course.invoke ⟨op, .epoch, 1⟩)).prune
    let x := again.finish .epoch ⟨op, .epoch, 2⟩ (.failed "busy")
    x.Reachable .initial ∧ op ∈ x.books.started ∧ op.Countable ∧
      (x.dossier op.ticket).Follows plan ∧ op ∈ x.books.ended.map (·.1.operation) ∧
      x.queue.result? 1 = some (.error (.retriesExhausted "sync" 2 "busy")) ∧
      x.queue.history.map (·.attempts) = [2] ∧
      ∃ n, IsLeast (op.finalAttempts plan) n ∧ x.Retries op plan n := by
  intro s op plan first heard started invoked failed again x
  have hinvoked : invoked.Reachable .initial :=
    ((((Chronicle.Reachable.initial.step (.submit _ s "" .epoch)).step
      (.submit _ s "" .epoch)).step (.hear _ .spawn [.wake] (List.Perm.refl _))).step
      (.drive _ .epoch (by decide +kernel))).step
      (.invoke _ _ (by decide +kernel) (by decide +kernel))
  have hfailed : failed.Reachable .initial :=
    (hinvoked.step (.finish _ _ _ .epoch (by decide +kernel) (by decide +kernel))).step
      (.cancelAll _ .epoch)
  have hx : x.Reachable .initial :=
    ((hfailed.step (.invoke _ _ (by decide +kernel) (by decide +kernel))).step (.prune _)).step
      (.finish _ _ _ .epoch (by decide +kernel) (by decide +kernel))
  have hop : op ∈ x.books.started := by decide +kernel
  have hcountable : op.Countable := by
    unfold Operation.Countable
    decide
  have hplan : (x.dossier op.ticket).Follows plan := by
    unfold Dossier.Follows
    decide +kernel
  exact ⟨hx, hop, hcountable, hplan, by decide +kernel, rfl, by decide +kernel,
    queue_retries hx hop hcountable hplan⟩

end ListKeeper
