import ListKeeper.Proofs.Queue.Drivers
import ListKeeper.Simulation.Machine

/-!
This module contains that a queue becomes idle again which has nothing to do but one synchronisation,
when storage lets nobody wait. There are enough steps for all attempts, and each attempt that fails
brings the last one nearer.
-/

namespace ListKeeper

namespace Machine

structure AtRest (m : Machine σ) : Prop where
  current : m.current = none
  ready : m.ready = []
  timers : m.timers = []
  waiting : m.waiting = []
  pending : m.queue.pending = []
  running : m.queue.running = []
  processing : m.queue.processing = false
  runnable : m.queue.drivers.runnable = 0
  parked : m.queue.drivers.parked = 0
  tickets : ∀ t ∈ m.queue.results.map (·.1), t ≤ m.queue.lastTicket

theorem atRest_create (w : World σ) (config : QueueConfig) : (create w config).AtRest where
  current := rfl
  ready := rfl
  timers := rfl
  waiting := rfl
  pending := rfl
  running := rfl
  processing := rfl
  runnable := rfl
  parked := rfl
  tickets := by simp [create, Queue.create]

structure IsSync (op : Operation Work) : Prop where
  name : op.name = "sync_lists"
  work : op.work = .sync
  retries : op.maxRetries.toNat + 1 < UInt32.size

theorem IsSync.maxRetries_lt_iff {op : Operation Work} {i : Nat} (hop : IsSync op)
    (hi : i ≤ op.maxRetries.toNat) :
    op.maxRetries < UInt32.ofNat (i + 1) ↔ i = op.maxRetries.toNat := by
  have hretries := hop.retries
  rw [UInt32.lt_iff_toNat_lt, UInt32.toNat_ofNat_of_lt' (by omega)]
  omega

section Plain

variable {k : Keeper σ} (m : Machine σ)

@[simp]
theorem wake_plain : m.wake (Host.plain k) = m := by
  cases m
  simp [wake, Host.plain]

theorem turn_plain : { m with world := (Host.plain k).turn 0 m.world } = m := rfl

theorem startTask_plain (task : Task σ) :
    m.startTask (Host.plain k) task = m.runTask (Host.plain k) task := by
  unfold startTask
  split
  · rfl
  · rfl

theorem proceed_plain (task : Task σ) :
    m.proceed (Host.plain k) task = m.continueWith task := rfl

end Plain

/--
The operation of `r` is the only one of the queue and has a slot, and the driver waits for its end.
No task is ready, and no time is waited for.
-/
structure Busy (r : Running Work) (m : Machine σ) : Prop where
  current : m.current = none
  ready : m.ready = []
  timers : m.timers = []
  pending : m.queue.pending = []
  running : m.queue.running = [r]
  processing : m.queue.processing = true
  drivers : m.queue.drivers = ⟨0, 1, false⟩

structure Released (m : Machine σ) : Prop where
  current : m.current = none
  ready : m.ready = [.driver]
  pending : m.queue.pending = []
  running : m.queue.running = []

section Attempt

variable {k : Keeper σ} {m : Machine σ} {r : Running Work} {attempt : Attempt Json}

def attemptOf : Except Error α → Attempt Json
  | .ok _ => .succeeded .null
  | .error e => .failed e.message

theorem Busy.note (h : Busy r m) (notices : List Notice) : Busy r (m.note notices) :=
  ⟨h.current, h.ready, h.timers, h.pending, h.running, h.processing, h.drivers⟩

theorem Busy.runTask_attempt (h : Busy r m) (hk : k.loadAll.Prompt)
    (hwork : r.operation.work = .sync) :
    ∃ m', Busy { r with attempts := r.attempts + 1 } m' ∧ m'.clock = m.clock ∧
      m.runTask (Host.plain k) (.attempt r.ticket) =
        m'.judge (Host.plain k) { r with attempts := r.attempts + 1 }
          (attemptOf (k.loadAll.run m.world).1) := by
  have hbegun : (m.queue.beginAttempt r.ticket).running =
      [{ r with attempts := r.attempts + 1 }] := by
    simp [Queue.beginAttempt, h.running]
  have hfound : (m.queue.beginAttempt r.ticket).running? r.ticket =
      some { r with attempts := r.attempts + 1 } := by
    unfold Queue.running?
    rw [hbegun]
    simp [Running.ticket]
  refine ⟨{ m with queue := m.queue.beginAttempt r.ticket, world := (k.loadAll.run m.world).2 },
    ⟨h.current, h.ready, h.timers, h.pending, hbegun, h.processing, h.drivers⟩, rfl, ?_⟩
  simp only [runTask, beginAttempt, hfound, hwork, sync, wake_plain]
  rw [show (Host.plain k).keeper = k from rfl, hk.poll_eq]
  rcases k.loadAll.run m.world with ⟨e | snapshot, w⟩
  · rfl
  · rfl

theorem Busy.judge_over (host : Host σ) (h : Busy r m) {notices : List Notice}
    {ending : Ending Json} (hverdict : r.verdict attempt = .over notices ending) :
    Released (m.judge host r attempt) := by
  simp only [judge, hverdict]
  refine ⟨h.current, ?_, h.pending, ?_⟩
  · simp [withQueue, Machine.note, Queue.receive, Queue.conclude, Queue.record, Queue.deliver,
      Drivers.receive, h.ready, h.drivers]
  · simp [withQueue, Queue.receive, Queue.conclude, Queue.record, Queue.deliver, Machine.note,
      h.running]

end Attempt

section Run

variable {k : Keeper σ} {host : Host σ} {done : Machine σ → Bool} {m : Machine σ}
variable {deadline fuel left : Nat}

theorem runFor_current {task : Task σ} (hcurrent : m.current = some task) :
    m.runFor host done deadline (fuel + 1) left =
      ({ m with current := none }.runTask host task).runFor host done deadline fuel left := by
  conv => lhs; unfold runFor
  simp only [hcurrent]

theorem runFor_ready {task : Task σ} {rest : List (Task σ)} (hcurrent : m.current = none)
    (hready : m.ready = task :: rest) :
    m.runFor host done deadline (fuel + 1) (left + 1) =
      ({ m with ready := rest }.startTask host task).runFor host done deadline fuel left := by
  conv => lhs; unfold runFor
  simp only [hcurrent, hready]

theorem runFor_rest (hcurrent : m.current = none) (hready : m.ready = []) :
    m.runFor (Host.plain k) done deadline (fuel + 1) left =
      if done m then m
      else match m.nextMoment with
        | some moment =>
          if moment < deadline then
            (m.jumpTo moment).runFor (Host.plain k) done deadline fuel share
          else m.jumpTo deadline
        | none => m.jumpTo deadline := by
  have hrest : { m with world := (Host.plain k).rest m.world }.wake (Host.plain k) = m :=
    wake_plain m
  have hwork : (Host.plain k).work m.world = none := rfl
  conv => lhs; unfold runFor
  split
  · next hsome => rw [hcurrent] at hsome; cases hsome
  · next hcons => rw [hready] at hcons; cases hcons
  · simp only [hrest]
    simp only [hwork, hready, List.isEmpty_nil, Bool.not_true, Bool.false_eq_true, if_false]
    cases m.nextMoment with
    | none => rfl
    | some moment => rfl

def Attempting (k : Keeper σ) (deadline reserve ticket : Nat) (m final : Machine σ) : Prop :=
  ∃ fuel left, reserve ≤ fuel ∧ 0 < left ∧
    final = (m.runTask (Host.plain k) (.attempt ticket)).runFor (Host.plain k) isIdle deadline
      fuel left

variable (m) in
theorem runUntil_plain :
    m.runUntil (Host.plain k) done deadline =
      m.runFor (Host.plain k) done deadline m.fuel share := by
  -- Not by `rfl`, which would run the machine.
  unfold runUntil
  exact turn_plain _

variable {r : Running Work} {op : Operation Work} {startedAt : Timestamp} {final : Machine σ}

theorem Released.runFor (h : Released m) (hfuel : 2 ≤ fuel) (hleft : 0 < left) :
    (m.runFor (Host.plain k) isIdle deadline fuel left).isIdle = true := by
  obtain ⟨fuel, rfl⟩ := Nat.exists_eq_add_of_le' hfuel
  obtain ⟨left, rfl⟩ := Nat.exists_eq_add_of_le' hleft
  have hmove : m.queue.move = .leave := by
    simp [Queue.move, h.pending, h.running]
  have hdrive : { m with ready := [] }.startTask (Host.plain k) .driver =
      { m with ready := [], queue := m.queue.drive m.today } := by
    simp only [startTask_plain, runTask, drive, hmove]
    rfl
  have hidle : isIdle { m with ready := [], queue := m.queue.drive m.today } = true := by
    simp [isIdle, Queue.drive, hmove]
  rw [runFor_ready h.current h.ready, hdrive,
    runFor_rest (m := { m with ready := [], queue := m.queue.drive m.today }) h.current rfl,
    if_pos hidle]
  exact hidle

theorem Busy.runFor_after (h : Busy r m) {millis reserve : Nat}
    (hmoment : m.momentAfter millis < deadline) (hfuel : reserve + 3 ≤ fuel) (hleft : 0 < left) :
    ∃ m', Busy r m' ∧ m'.clock = m.momentAfter millis ∧
      Attempting k deadline reserve r.ticket m'
        ((m.after (Host.plain k) millis (.attempt r.ticket)).runFor (Host.plain k) isIdle deadline
          fuel left) := by
  obtain ⟨fuel, rfl⟩ := Nat.exists_eq_add_of_le' hfuel
  unfold after
  split
  · next hzero =>
    have hcurrent : { m with current := none } = m := by
      rw [← h.current]
    refine ⟨m, h, ?_, fuel + reserve + 2, left, by omega, hleft, ?_⟩
    · simp [momentAfter, hzero]
    · rw [proceed_plain, show fuel + (reserve + 3) = fuel + reserve + 2 + 1 by omega]
      rw [runFor_current (m := m.continueWith (.attempt r.ticket)) rfl]
      exact congrArg (fun m : Machine σ =>
        (m.runTask (Host.plain k) (.attempt r.ticket)).runFor _ _ _ _ _) hcurrent
  · -- The operation is ready when the moment has come, and then goes on in the same turn.
    let waiting : Machine σ :=
      { m with timers := [(m.momentAfter millis, .elapsed (.attempt r.ticket))] }
    let due : Machine σ :=
      { m with
        clock := m.momentAfter millis
        ready := [.elapsed (.attempt r.ticket)]
        timers := [] }
    have hwaiting : waiting.isIdle = false := by
      simp [waiting, isIdle, h.processing]
    have hjump : waiting.jumpTo (m.momentAfter millis) = due := by
      simp [waiting, due, jumpTo, h.ready]
    refine ⟨{ m with clock := m.momentAfter millis, ready := [], timers := [], current := none },
      ⟨rfl, rfl, rfl, h.pending, h.running, h.processing, h.drivers⟩, rfl, fuel + reserve,
      share - 1, Nat.le_add_left _ _, by decide, ?_⟩
    rw [h.timers, List.nil_append, ← Nat.add_assoc]
    calc waiting.runFor (Host.plain k) isIdle deadline (fuel + reserve + 3) left
      _ = due.runFor (Host.plain k) isIdle deadline (fuel + reserve + 2) share := by
        rw [runFor_rest (m := waiting) h.current h.ready, hwaiting, ← hjump]
        exact if_pos hmoment
      _ = ({ due with ready := [] }.continueWith (.attempt r.ticket)).runFor (Host.plain k) isIdle
            deadline (fuel + reserve + 1) (share - 1) := by
        rw [show share = share - 1 + 1 from rfl, runFor_ready (m := due) h.current rfl,
          startTask_plain]
        rfl
      _ = _ := runFor_current rfl

theorem drive_of_wait (hmove : m.queue.move = .wait) :
    m.drive =
      if m.queue.drivers.permit then
        { m with queue.drivers.permit := false }.continueWith .driver
      else
        { m with queue.drivers :=
            { m.queue.drivers with
              runnable := m.queue.drivers.runnable - 1
              parked := m.queue.drivers.parked + 1 } } := by
  unfold drive Queue.drive Drivers.park
  simp only [hmove]
  split
  · rfl
  · rfl

theorem runFor_driver {reserve : Nat} (hcurrent : m.current = some .driver)
    (hmove : m.queue.move = .wait) (hrunnable : m.queue.drivers.runnable = 1)
    (hparked : m.queue.drivers.parked = 0) (hfuel : reserve + 2 ≤ fuel) :
    ∃ fuel', reserve ≤ fuel' ∧
      m.runFor host done deadline fuel left =
        { m with current := none, queue.drivers := ⟨0, 1, false⟩ }.runFor host done deadline
          fuel' left := by
  obtain ⟨fuel, rfl⟩ := Nat.exists_eq_add_of_le' hfuel
  rw [← Nat.add_assoc, runFor_current hcurrent]
  cases hpermit : m.queue.drivers.permit with
  | false =>
    refine ⟨fuel + reserve + 1, by omega, ?_⟩
    have hdrive := drive_of_wait (m := { m with current := none }) hmove
    simp only [hpermit, hrunnable, hparked, Bool.false_eq_true, if_false] at hdrive
    simp only [runTask, hdrive]
  | true =>
    -- The wake-up that was kept makes the driver look once more, and then there is none.
    refine ⟨fuel + reserve, by omega, ?_⟩
    have hdrive := drive_of_wait (m := { m with current := none }) hmove
    have hagain := drive_of_wait
      (m := { m with current := none, queue.drivers.permit := false }) hmove
    simp only [hpermit, if_true] at hdrive
    simp only [hrunnable, hparked, Bool.false_eq_true, if_false] at hagain
    simp only [runTask, hdrive]
    rw [runFor_current rfl]
    simp only [runTask, continueWith, hrunnable, hparked, hagain]

theorem AtRest.scheduleSync_eq (h : m.AtRest) (priority : Priority) (mark : String) :
    (m.scheduleSync priority mark).2 =
      { m with
        world := [.syncScheduled priority,
          .enqueued (m.scheduleSync priority mark).1.ref 1].foldl World.notice m.world
        queue := { m.queue with
          pending := [(m.scheduleSync priority mark).1]
          processing := true
          lastTicket := m.queue.lastTicket + 1
          drivers.runnable := 1 }
        ready := [.driver] } := by
  simp [scheduleSync, enqueue, Queue.enqueue, Queue.accept, h.pending, h.processing, Queue.place,
    Queue.receive, Drivers.receive, withQueue, h.ready, h.runnable, Machine.note, Queue.admitted]

theorem AtRest.runFor_scheduleSync (h : m.AtRest)
    (hslots : 0 < m.queue.config.maxConcurrent.toNat) (priority : Priority) (mark : String)
    {reserve : Nat} (hfuel : reserve + 4 ≤ fuel) :
    ∃ m', Busy ⟨(m.scheduleSync priority mark).1, m.today, 0⟩ m' ∧ m'.clock = m.clock ∧
      Attempting k deadline reserve (m.scheduleSync priority mark).1.ticket m'
        ((m.scheduleSync priority mark).2.runFor (Host.plain k) isIdle deadline fuel share) := by
  obtain ⟨fuel, rfl⟩ := Nat.exists_eq_add_of_le' hfuel
  rw [h.scheduleSync_eq]
  generalize hop : (m.scheduleSync priority mark).1 = op
  let scheduled : Machine σ :=
    { m with
      world := [.syncScheduled priority, .enqueued op.ref 1].foldl World.notice m.world
      queue := { m.queue with
        pending := [op]
        processing := true
        lastTicket := m.queue.lastTicket + 1
        drivers.runnable := 1 }
      ready := [.driver] }
  let started : Machine σ :=
    { scheduled with
      queue := { scheduled.queue with pending := [], running := [⟨op, m.today, 0⟩] }
      ready := [.attempt op.ticket]
      current := some .driver }
  have hmove : scheduled.queue.move = .start op [] := by
    simp [scheduled, Queue.move, h.running, hslots]
  have hdrive : { scheduled with ready := [] }.startTask (Host.plain k) .driver = started := by
    simp only [startTask_plain, runTask, drive, Queue.drive, hmove]
    simp [scheduled, started, continueWith, today, h.running]
    rfl
  have hwait : started.queue.move = .wait := by
    simp [started, Queue.move]
  let parked : Machine σ :=
    { started with current := none, queue.drivers := ⟨0, 1, false⟩ }
  have hparked : ∃ fuel', reserve + 1 ≤ fuel' ∧
      started.runFor (Host.plain k) isIdle deadline (fuel + reserve + 3) (share - 1) =
        parked.runFor (Host.plain k) isIdle deadline fuel' (share - 1) :=
    runFor_driver rfl hwait rfl h.parked (by omega)
  obtain ⟨fuel', hfuel', hrun⟩ := hparked
  obtain ⟨fuel', rfl⟩ := Nat.exists_eq_add_of_le' hfuel'
  refine ⟨{ parked with ready := [] }, ⟨rfl, rfl, h.timers, rfl, rfl, rfl, rfl⟩, rfl,
    fuel' + reserve, share - 2, Nat.le_add_left _ _, by decide, ?_⟩
  calc scheduled.runFor (Host.plain k) isIdle deadline (fuel + reserve + 4) share
    _ = started.runFor (Host.plain k) isIdle deadline (fuel + reserve + 3) (share - 1) := by
      rw [show share = share - 1 + 1 from rfl, runFor_ready (m := scheduled) h.current rfl, hdrive]
      rfl
    _ = parked.runFor (Host.plain k) isIdle deadline (fuel' + (reserve + 1)) (share - 1) := hrun
    _ = _ := by
      rw [show share - 1 = share - 2 + 1 from rfl, ← Nat.add_assoc,
        runFor_ready (m := parked) rfl rfl, startTask_plain]

theorem IsSync.lt_of_again (hop : IsSync op) {i : Nat} (hi : i ≤ op.maxRetries.toNat)
    {attempt : Attempt Json} {failure : FailedAttempt}
    (hagain : Running.verdict ⟨op, startedAt, .ofNat (i + 1)⟩ attempt = .again failure) :
    i < op.maxRetries.toNat := by
  apply Nat.lt_of_le_of_ne hi
  intro hlast
  have hover := (hop.maxRetries_lt_iff hi).2 hlast
  cases attempt with
  | succeeded value => cases hagain
  | failed error =>
    have hverdict : Running.verdict ⟨op, startedAt, .ofNat (i + 1)⟩
        (.failed error : Attempt Json) = _ := if_pos hover
    rw [hverdict] at hagain
    cases hagain
  | crashed => cases hagain

theorem Busy.isIdle_or_attempting (hk : k.loadAll.Prompt) (hop : IsSync op) {i reserve : Nat}
    (h : Busy ⟨op, startedAt, .ofNat i⟩ m) (hi : i ≤ op.maxRetries.toNat)
    (hmoment : i < op.maxRetries.toNat → m.momentAfter op.retryDelay.millisUp < deadline)
    (hfinal : Attempting k deadline (reserve + 3) op.ticket m final) :
    final.isIdle = true ∨ i < op.maxRetries.toNat ∧
      ∃ m', Busy ⟨op, startedAt, .ofNat (i + 1)⟩ m' ∧
        m'.clock = m.momentAfter op.retryDelay.millisUp ∧
        Attempting k deadline reserve op.ticket m' final := by
  obtain ⟨fuel, left, hfuel, hleft, rfl⟩ := hfinal
  obtain ⟨m₁, hbusy, hclock, hrun⟩ := h.runTask_attempt hk hop.work
  have hcount : UInt32.ofNat i + 1 = UInt32.ofNat (i + 1) := (UInt32.ofNat_add i 1).symm
  rw [hcount] at hbusy hrun
  have hrun : m.runTask (Host.plain k) (.attempt op.ticket) =
      m₁.judge (Host.plain k) ⟨op, startedAt, .ofNat (i + 1)⟩
        (attemptOf (k.loadAll.run m.world).1) := hrun
  rw [hrun]
  rcases hverdict : Running.verdict ⟨op, startedAt, .ofNat (i + 1)⟩
      (attemptOf (k.loadAll.run m.world).1) with failure | ⟨notices, ending⟩
  · have hlt := hop.lt_of_again hi hverdict
    have hsame : m₁.momentAfter op.retryDelay.millisUp = m.momentAfter op.retryDelay.millisUp :=
      congrArg (· + _) hclock
    have hmoment := hmoment hlt
    rw [← hsame] at hmoment ⊢
    obtain ⟨m', hbusy', hclock', hafter⟩ :=
      (hbusy.note [.retrying failure]).runFor_after (k := k) hmoment hfuel hleft
    refine .inr ⟨hlt, m', hbusy', hclock', ?_⟩
    simp only [judge, hverdict]
    exact hafter
  · exact .inl ((hbusy.judge_over _ hverdict).runFor (by omega) hleft)

theorem Busy.isIdle_of_attempting (hk : k.loadAll.Prompt) (hop : IsSync op) {i spare : Nat}
    (h : Busy ⟨op, startedAt, .ofNat i⟩ m) (hspare : i + spare = op.maxRetries.toNat)
    (hclock : m.clock + spare * min op.retryDelay.millisUp longestWait < deadline)
    (hfinal : Attempting k deadline (3 * spare + 3) op.ticket m final) :
    final.isIdle = true := by
  induction spare generalizing i m with
  | zero =>
    rcases h.isIdle_or_attempting hk hop (by omega) (by omega) hfinal with hidle | ⟨hlt, -⟩
    · exact hidle
    · omega
  | succ spare ih =>
    rw [Nat.add_one_mul, Nat.add_comm _ (min _ _), ← Nat.add_assoc] at hclock
    have hmoment := Nat.lt_of_le_of_lt (Nat.le_add_right _ _) hclock
    rcases h.isIdle_or_attempting hk hop (by omega) (fun _ => hmoment) hfinal with
      hidle | ⟨-, m', hbusy, hclock', hfinal⟩
    · exact hidle
    · refine ih hbusy (by omega) ?_ hfinal
      rw [hclock']
      exact hclock

theorem AtRest.le_fuel_scheduleSync (h : m.AtRest) (priority : Priority) (mark : String) :
    3 * m.queue.config.maxRetries.toNat + 3 + 4 ≤ (m.scheduleSync priority mark).2.fuel := by
  have hsteps : stepsOfAll [(m.scheduleSync priority mark).1] =
      (4 * 1000000 + 22) * (m.queue.config.maxRetries.toNat + 1) + 16 := rfl
  have hpending : (m.scheduleSync priority mark).2.queue.pending =
      [(m.scheduleSync priority mark).1] := by
    rw [h.scheduleSync_eq]
  unfold Machine.fuel
  rw [hpending]
  omega

theorem AtRest.isIdle_scheduleSync (h : m.AtRest) (hk : k.loadAll.Prompt)
    (hslots : 0 < m.queue.config.maxConcurrent.toNat)
    (hretries : m.queue.config.maxRetries.toNat + 1 < UInt32.size) (priority : Priority)
    (mark : String)
    (hdeadline : m.clock +
      m.queue.config.maxRetries.toNat * min m.queue.config.retryDelay.millisUp longestWait <
        deadline) :
    ((m.scheduleSync priority mark).2.runUntil (Host.plain k) isIdle deadline).isIdle = true := by
  obtain ⟨m', hbusy, hclock, hfinal⟩ :=
    h.runFor_scheduleSync (k := k) hslots priority mark (h.le_fuel_scheduleSync priority mark)
  rw [← hclock] at hdeadline
  rw [runUntil_plain]
  exact hbusy.isIdle_of_attempting hk ⟨rfl, rfl, hretries⟩ (Nat.zero_add _) hdeadline hfinal

end Run

end Machine
end ListKeeper
