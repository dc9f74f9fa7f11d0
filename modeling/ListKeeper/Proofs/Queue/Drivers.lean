import ListKeeper.Proofs.Queue.Slots

/-!
This module contains the drivers of a queue: there is never more than one, there is one whenever
there is something to do, and none of them waits for a wake-up that has been missed. A driver that
has found nothing to do lets go of the queue before it begins to wait, and what happens between the
two is taken into account here.
-/

namespace ListKeeper

/--
A queue in use, with the number of drivers that have found nothing to do and have not begun to wait.
-/
structure Watch (ω α : Type) where
  course : Course ω α
  turning : Nat

namespace Watch

variable (x : Watch ω α)

def initial (config : QueueConfig) : Watch ω α :=
  ⟨.initial config, 0⟩

def queue : Queue ω α := x.course.queue

def withDrivers (d : Drivers) : Course ω α :=
  { x.course with queue := { x.course.queue with drivers := d } }

def turn : Watch ω α :=
  ⟨x.withDrivers { x.queue.drivers with runnable := x.queue.drivers.runnable - 1 }, x.turning + 1⟩

def park : Watch ω α :=
  ⟨x.withDrivers { x.queue.drivers with runnable := x.queue.drivers.runnable + 1 }.park,
    x.turning - 1⟩

inductive Step : Watch ω α → Watch ω α → Prop
  | course (x : Watch ω α) {c : Course ω α} (h : x.course.Step c) : Step x ⟨c, x.turning⟩
  | turn (x : Watch ω α) (h : 0 < x.queue.drivers.runnable) (hmove : x.queue.move = .wait) :
    Step x x.turn
  | park (x : Watch ω α) (h : 0 < x.turning) : Step x x.park

inductive Reachable (config : QueueConfig) : Watch ω α → Prop
  | initial : Reachable config (initial config)
  | step {x x' : Watch ω α} (h : Reachable config x) (hstep : Step x x') : Reachable config x'

theorem park_turn (now : Timestamp) (h : 0 < x.queue.drivers.runnable)
    (hmove : x.queue.move = .wait) : x.turn.park = ⟨x.course.drive now, x.turning⟩ := by
  obtain ⟨⟨q, working, signals, trace⟩, turning⟩ := x
  have hone : q.drivers.runnable - 1 + 1 = q.drivers.runnable := Nat.sub_add_cancel h
  have hwait : q.move = .wait := hmove
  simp only [turn, park, withDrivers, queue, Course.drive, Queue.drive, hwait, hone,
    Nat.add_sub_cancel, List.append_nil]

variable {x} in
theorem accounted_withDrivers (h : Accounted x.queue x.course.books) (d : Drivers) :
    Accounted (x.withDrivers d).queue (x.withDrivers d).books :=
  ⟨h.tickets, h.lastTicket, h.whereabouts, h.slots, h.results, h.invoked, h.endings, h.idle⟩

def live : Nat :=
  x.queue.drivers.runnable + x.queue.drivers.parked + x.turning

def spawns : Nat :=
  x.course.signals.count .spawn

/--
The queue is guarded: there is one driver, or there is about to be one, exactly while operations are
processed. A driver that waits has used up the wake-up that was kept, and one that waits or is about
to has nothing to do, or there is a wake-up that it has not heard.
-/
structure Guarded : Prop where
  count : x.live + x.spawns = if x.queue.processing then 1 else 0
  heard : 0 < x.queue.drivers.parked → x.queue.drivers.permit = false
  alert : 0 < x.queue.drivers.parked + x.turning →
    x.queue.move = .wait ∨ .wake ∈ x.course.signals ∨ x.queue.drivers.permit = true

namespace Guarded

variable {x}

theorem live_le_one (h : x.Guarded) : x.live + x.spawns ≤ 1 := by
  rw [h.count]
  split
  · exact Nat.le_refl 1
  · exact Nat.zero_le 1

theorem processing_of_pos (h : x.Guarded) (hpos : 0 < x.live + x.spawns) :
    x.queue.processing = true := by
  have hcount := h.count
  split at hcount
  · assumption
  · omega

theorem of_signals {c : Course ω α} (sent : List Signal) (h : x.Guarded)
    (hdrivers : c.queue.drivers = x.queue.drivers)
    (hprocessing : c.queue.processing = x.queue.processing)
    (hsignals : c.signals = x.course.signals ++ sent) (hspawn : .spawn ∉ sent)
    (halert : .wake ∈ sent ∨ (x.queue.move = .wait → c.queue.move = .wait)) :
    Guarded ⟨c, x.turning⟩ := by
  refine ⟨?_, ?_, ?_⟩
  · have hcount := h.count
    unfold live spawns queue at hcount ⊢
    rw [hdrivers, hprocessing, hsignals, List.count_append, List.count_eq_zero_of_not_mem hspawn]
    exact hcount
  · unfold queue
    rw [hdrivers]
    exact h.heard
  · unfold queue
    rw [hdrivers, hsignals, List.mem_append]
    intro hwaiting
    rcases h.alert hwaiting with hmove | hwake | hpermit
    · rcases halert with hsent | hsame
      · exact .inr (.inl (.inr hsent))
      · exact .inl (hsame hmove)
    · exact .inr (.inl (.inl hwake))
    · exact .inr (.inr hpermit)

theorem of_silent {c : Course ω α} (h : x.Guarded)
    (hdrivers : c.queue.drivers = x.queue.drivers)
    (hprocessing : c.queue.processing = x.queue.processing)
    (hsignals : c.signals = x.course.signals)
    (hmove : x.queue.move = .wait → c.queue.move = .wait) : Guarded ⟨c, x.turning⟩ := by
  rw [← List.append_nil x.course.signals] at hsignals
  exact h.of_signals [] hdrivers hprocessing hsignals List.not_mem_nil (.inr hmove)

theorem of_awake (hcount : x.live + x.spawns = if x.queue.processing then 1 else 0)
    (hawake : x.queue.drivers.parked + x.turning = 0) : x.Guarded := by
  refine ⟨hcount, ?_, ?_⟩
  · intro hparked
    omega
  · intro hwaiting
    omega

theorem initial (config : QueueConfig) : (Watch.initial config : Watch ω α).Guarded :=
  of_awake rfl rfl

theorem submit (h : x.Guarded) (s : Submission ω) (mark : String) (now : Timestamp) :
    Guarded ⟨x.course.submit s mark now, x.turning⟩ := by
  have hsignals : (x.course.submit s mark now).signals =
      x.course.signals ++ [if x.queue.processing then .wake else .spawn] := rfl
  cases hprocessing : x.queue.processing with
  | true =>
    rw [hprocessing, if_pos rfl] at hsignals
    apply h.of_signals (c := x.course.submit s mark now) [.wake]
    · rfl
    · exact hprocessing.symm
    · exact hsignals
    · simp
    · exact .inl (by simp)
  -- The last driver has left, so there is none that could wait.
  | false =>
    have hcount := h.count
    unfold live spawns at hcount
    simp only [hprocessing, Bool.false_eq_true, if_false] at hcount hsignals
    apply of_awake
    · unfold spawns
      rw [hsignals, List.count_append]
      show x.live + (x.course.signals.count Signal.spawn + 1) = 1
      unfold live
      omega
    · show x.queue.drivers.parked + x.turning = 0
      omega

theorem hear (h : x.Guarded) {signal : Signal} {others : List Signal}
    (hsignals : x.course.signals.Perm (signal :: others)) :
    Guarded ⟨x.course.hear signal others, x.turning⟩ := by
  have hle := h.live_le_one
  have hcount := h.count
  have hspawns : x.spawns = (signal :: others).count .spawn := hsignals.count_eq _
  rw [hspawns] at hle hcount
  unfold live at hle hcount
  have hqueue : (⟨x.course.hear signal others, x.turning⟩ : Watch ω α).queue =
      { x.queue with drivers := x.queue.drivers.receive signal } := rfl
  cases signal with
  | spawn =>
    rw [List.count_cons_self] at hle hcount
    apply of_awake
    · show x.queue.drivers.runnable + 1 + x.queue.drivers.parked + x.turning +
        others.count .spawn = if x.queue.processing then 1 else 0
      omega
    · show x.queue.drivers.parked + x.turning = 0
      omega
  | wake =>
    rw [List.count_cons_of_ne (by simp)] at hle hcount
    by_cases hparked : 0 < x.queue.drivers.parked
    -- The driver that waits is the only one, and now none waits any more.
    · simp only [Drivers.receive, hparked, if_true] at hqueue
      apply of_awake
      · unfold live spawns
        rw [hqueue]
        show x.queue.drivers.runnable + 1 + (x.queue.drivers.parked - 1) + x.turning +
          others.count .spawn = if x.queue.processing then 1 else 0
        omega
      · rw [hqueue]
        show x.queue.drivers.parked - 1 + x.turning = 0
        omega
    · simp only [Drivers.receive, hparked, if_false] at hqueue
      refine ⟨?_, ?_, ?_⟩
      · unfold live spawns
        rw [hqueue]
        exact hcount
      · rw [hqueue]
        intro hparked'
        exact absurd hparked' hparked
      · rw [hqueue]
        exact fun _ => .inr (.inr rfl)

theorem turn (h : x.Guarded) (hrunnable : 0 < x.queue.drivers.runnable)
    (hmove : x.queue.move = .wait) : x.turn.Guarded := by
  refine ⟨?_, h.heard, fun _ => .inl hmove⟩
  have hcount := h.count
  unfold live at hcount
  show x.queue.drivers.runnable - 1 + x.queue.drivers.parked + (x.turning + 1) + x.spawns =
    if x.queue.processing then 1 else 0
  omega

theorem park (h : x.Guarded) (hturning : 0 < x.turning) : x.park.Guarded := by
  have hcount := h.count
  have hle := h.live_le_one
  unfold live at hcount hle
  have hqueue : x.park.queue = { x.queue with
    drivers := { x.queue.drivers with runnable := x.queue.drivers.runnable + 1 }.park } := rfl
  unfold Drivers.park at hqueue
  split at hqueue
  · apply of_awake
    · unfold live
      rw [hqueue]
      show x.queue.drivers.runnable + 1 + x.queue.drivers.parked + (x.turning - 1) + x.spawns =
        if x.queue.processing then 1 else 0
      omega
    · rw [hqueue]
      show x.queue.drivers.parked + (x.turning - 1) = 0
      omega
  · next hpermit =>
    refine ⟨?_, ?_, ?_⟩
    · unfold live
      rw [hqueue]
      show x.queue.drivers.runnable + 1 - 1 + (x.queue.drivers.parked + 1) + (x.turning - 1) +
        x.spawns = if x.queue.processing then 1 else 0
      omega
    · rw [hqueue]
      exact fun _ => Bool.eq_false_iff.2 hpermit
    -- What it has found when it looked still holds, or it is about to hear a wake-up.
    · rw [hqueue]
      intro _
      exact h.alert (by omega)

theorem drive (h : x.Guarded) (hrunnable : 0 < x.queue.drivers.runnable) (now : Timestamp) :
    Guarded ⟨x.course.drive now, x.turning⟩ := by
  have hcount := h.count
  have hle := h.live_le_one
  have hprocessing := h.processing_of_pos (by unfold live; omega)
  unfold live at hcount hle
  have hqueue : (⟨x.course.drive now, x.turning⟩ : Watch ω α).queue = x.queue.drive now := rfl
  rcases x.queue.drive_cases now with ⟨op, rest, _, _, hdrive⟩ | ⟨hmove, _⟩ | ⟨_, _, _, hdrive⟩
  · apply of_awake
    · unfold live
      rw [hqueue, hdrive]
      exact hcount
    · rw [hqueue, hdrive]
      show x.queue.drivers.parked + x.turning = 0
      omega
  · rw [← x.park_turn now hrunnable hmove]
    exact (h.turn hrunnable hmove).park (Nat.succ_pos _)
  · rw [hprocessing, if_pos rfl] at hcount
    apply of_awake
    · unfold live
      rw [hqueue, hdrive]
      show x.queue.drivers.runnable - 1 + x.queue.drivers.parked + x.turning + x.spawns = 0
      omega
    · rw [hqueue, hdrive]
      show x.queue.drivers.parked + x.turning = 0
      omega

theorem invoke (h : x.Guarded) (r : Running ω) :
    Guarded ⟨x.course.invoke r, x.turning⟩ := by
  refine h.of_silent rfl rfl rfl ?_
  intro hmove
  rw [Queue.move_eq_wait_iff] at hmove ⊢
  have hlength : (x.course.queue.beginAttempt r.ticket).running.length =
      x.queue.running.length := List.length_map _
  show x.queue.pending = [] ∧ (x.course.queue.beginAttempt r.ticket).running ≠ [] ∨
    x.queue.pending ≠ [] ∧ x.queue.config.maxConcurrent.toNat ≤
      (x.course.queue.beginAttempt r.ticket).running.length
  rw [← List.length_pos_iff, hlength, List.length_pos_iff]
  exact hmove

theorem finish (h : x.Guarded) (r : Running ω) (attempt : Attempt α) (now : Timestamp) :
    Guarded ⟨x.course.finish r attempt now, x.turning⟩ := by
  unfold Course.finish
  split
  · exact h.of_silent rfl rfl rfl id
  · apply h.of_signals [.wake]
    · rfl
    · rfl
    · rfl
    · simp
    · exact .inl (by simp)

theorem cancelAll (h : x.Guarded) (now : Timestamp) :
    Guarded ⟨x.course.cancelAll now, x.turning⟩ := by
  apply h.of_signals (if x.queue.pending.isEmpty then [] else [.wake])
  · exact x.queue.drivers_drain now
  · exact x.queue.processing_drain now
  · rfl
  · split
    · simp
    · simp
  · cases hpending : x.queue.pending.isEmpty with
    | true =>
      right
      intro hmove
      show (x.queue.drain now).move = .wait
      rw [Queue.move_eq_wait_iff, Queue.pending_drain, Queue.running_drain]
      rw [Queue.move_eq_wait_iff, List.isEmpty_iff.1 hpending] at hmove
      simpa using hmove
    | false => exact .inl (by simp)

theorem prune (h : x.Guarded) : Guarded ⟨x.course.prune, x.turning⟩ :=
  h.of_silent rfl rfl rfl id

theorem step {x' : Watch ω α} (h : x.Guarded) (hstep : x.Step x') : x'.Guarded := by
  cases hstep with
  | course hcourse =>
    cases hcourse with
    | submit s mark now => exact h.submit s mark now
    | hear signal others hsignals => exact h.hear hsignals
    | drive now hrunnable => exact h.drive hrunnable now
    | invoke r _ _ => exact h.invoke r
    | finish r attempt now _ _ => exact h.finish r attempt now
    | cancelAll now => exact h.cancelAll now
    | prune => exact h.prune
  | turn hrunnable hmove => exact h.turn hrunnable hmove
  | park hturning => exact h.park hturning

end Guarded

namespace Reachable

variable {x} {config : QueueConfig}

theorem guarded (h : x.Reachable config) : x.Guarded := by
  induction h with
  | initial => exact .initial config
  | step _ hstep ih => exact ih.step hstep

theorem accounted (h : x.Reachable config) : Accounted x.queue x.course.books := by
  induction h with
  | initial => exact .initial config
  | step _ hstep ih =>
    cases hstep with
    | course hcourse => exact Accounted.step ih hcourse
    | turn _ _ => exact accounted_withDrivers ih _
    | park _ => exact accounted_withDrivers ih _

theorem config_eq (h : x.Reachable config) : x.queue.config = config := by
  induction h with
  | initial => rfl
  | step _ hstep ih =>
    cases hstep with
    | course hcourse => exact (Course.config_step hcourse).trans ih
    | turn _ _ => exact ih
    | park _ => exact ih

theorem running_length_le (h : x.Reachable config) :
    x.queue.running.length ≤ x.queue.config.maxConcurrent.toNat := by
  induction h with
  | initial => exact Nat.zero_le _
  | step _ hstep ih =>
    cases hstep with
    | course hcourse => exact Course.running_length_step hcourse ih
    | turn _ _ => exact ih
    | park _ => exact ih

end Reachable

structure Quiet : Prop where
  runnable : x.queue.drivers.runnable = 0
  turning : x.turning = 0
  signals : x.course.signals = []

/--
The queue is attended to: there is at most one driver, and there is one, or an operation that was
enqueued is about to spawn one, whenever there are operations. When nothing is left to run, either
there are no operations, or some are running, and those that are pending wait for a slot that is not
free. A driver that waits while nothing is running has a wake-up on its way.
-/
structure Attended (config : QueueConfig) : Prop where
  oneDriver : x.live + x.spawns ≤ 1
  driven : x.queue.pending ≠ [] ∨ x.queue.running ≠ [] →
    x.queue.processing = true ∧ (x.live = 1 ∨ .spawn ∈ x.course.signals)
  settled : x.Quiet →
    x.queue.processing = false ∧ x.queue.pending = [] ∧ x.queue.running = [] ∨
      x.queue.running ≠ [] ∧
        (x.queue.pending = [] ∨ x.queue.running.length = config.maxConcurrent.toNat)
  awaited : 0 < x.queue.drivers.parked → x.queue.running = [] → .wake ∈ x.course.signals

theorem maxConcurrent_pos {config : QueueConfig} (h : config.validate = .ok ()) :
    0 < config.maxConcurrent.toNat := by
  unfold QueueConfig.validate at h
  split at h
  · contradiction
  · next hne => exact Nat.pos_of_ne_zero fun hzero => hne (UInt64.toNat_inj.1 hzero)

section Attended

variable {x} {config : QueueConfig}

theorem Reachable.running_of_wait (h : x.Reachable config) (hconfig : config.validate = .ok ())
    (hmove : x.queue.move = .wait) :
    x.queue.running ≠ [] ∧
      (x.queue.pending = [] ∨ x.queue.running.length = config.maxConcurrent.toNat) := by
  have hpos := maxConcurrent_pos hconfig
  have hle := h.running_length_le
  rw [h.config_eq] at hle
  rcases Queue.move_eq_wait_iff.1 hmove with ⟨hpending, hrunning⟩ | ⟨_, hfull⟩
  · exact ⟨hrunning, .inl hpending⟩
  · rw [h.config_eq] at hfull
    refine ⟨?_, .inr (Nat.le_antisymm hle hfull)⟩
    rw [← List.length_pos_iff]
    omega

theorem Reachable.driven (h : x.Reachable config)
    (hsome : x.queue.pending ≠ [] ∨ x.queue.running ≠ []) :
    x.queue.processing = true ∧ (x.live = 1 ∨ .spawn ∈ x.course.signals) := by
  cases hprocessing : x.queue.processing with
  | false =>
    obtain ⟨hpending, hrunning⟩ := h.accounted.idle hprocessing
    rcases hsome with hsome | hsome
    · exact absurd hpending hsome
    · exact absurd hrunning hsome
  | true =>
    refine ⟨rfl, ?_⟩
    have hcount := h.guarded.count
    rw [hprocessing, if_pos rfl] at hcount
    by_cases hspawn : .spawn ∈ x.course.signals
    · exact .inr hspawn
    · left
      have hnone : x.spawns = 0 := List.count_eq_zero_of_not_mem hspawn
      omega

theorem Reachable.settled (h : x.Reachable config) (hconfig : config.validate = .ok ())
    (hquiet : x.Quiet) :
    x.queue.processing = false ∧ x.queue.pending = [] ∧ x.queue.running = [] ∨
      x.queue.running ≠ [] ∧
        (x.queue.pending = [] ∨ x.queue.running.length = config.maxConcurrent.toNat) := by
  cases hprocessing : x.queue.processing with
  | false => exact .inl ⟨rfl, h.accounted.idle hprocessing⟩
  | true =>
    right
    -- The driver is neither about to look nor about to be spawned, so it waits.
    have hcount := h.guarded.count
    have hnone : x.spawns = 0 := by
      unfold spawns
      rw [hquiet.signals]
      rfl
    rw [hprocessing, if_pos rfl, hnone] at hcount
    unfold live at hcount
    rw [hquiet.runnable, hquiet.turning] at hcount
    have hparked : 0 < x.queue.drivers.parked := by omega
    have halert := h.guarded.alert (by omega)
    rw [hquiet.signals, h.guarded.heard hparked] at halert
    simp only [List.not_mem_nil, Bool.false_eq_true, or_false] at halert
    exact h.running_of_wait hconfig halert

theorem Reachable.awaited (h : x.Reachable config) (hconfig : config.validate = .ok ())
    (hparked : 0 < x.queue.drivers.parked) (hrunning : x.queue.running = []) :
    .wake ∈ x.course.signals := by
  rcases h.guarded.alert (by omega) with hmove | hwake | hpermit
  · exact absurd hrunning (h.running_of_wait hconfig hmove).1
  · exact hwake
  · rw [h.guarded.heard hparked] at hpermit
    contradiction

end Attended
end Watch

/--
In every state that a queue with valid settings can get into, by steps in any order, the queue is
attended to: it never stalls, and it never has two drivers.
-/
theorem queue_attended {config : QueueConfig} (hconfig : config.validate = .ok ())
    {x : Watch ω α} (h : x.Reachable config) : x.Attended config where
  oneDriver := h.guarded.live_le_one
  driven hsome := h.driven hsome
  settled hquiet := h.settled hconfig hquiet
  awaited hparked hrunning := h.awaited hconfig hparked hrunning

/--
An operation is enqueued after the driver has found that it has to wait and before it begins to. The
wake-up is kept, so the driver looks again and starts the operation.
-/
theorem queue_attended_interrupted :
    let s : Submission Unit := ⟨"sync", none, .medium, none, none, ()⟩
    let started : Course Unit Nat := (Course.initial .initial)
      |>.submit s "a" .epoch
      |>.hear .spawn []
      |>.drive .epoch
    let interrupted : Watch Unit Nat := (⟨started, 0⟩ : Watch Unit Nat).turn
    let missed : Watch Unit Nat :=
      ⟨(interrupted.course.submit s "b" .epoch).hear .wake [], interrupted.turning⟩
    let x : Watch Unit Nat := (⟨missed.park.course.drive .epoch, 0⟩ : Watch Unit Nat).turn.park
    QueueConfig.initial.validate = .ok () ∧ missed.Reachable .initial ∧
      missed.queue.pending ≠ [] ∧ missed.queue.drivers = ⟨0, 0, true⟩ ∧ missed.turning = 1 ∧
      missed.Attended .initial ∧ x.Reachable .initial ∧ x.Quiet ∧
      x.queue.running.length = 2 ∧ x.Attended .initial := by
  intro s started interrupted missed x
  have hinterrupted : interrupted.Reachable .initial :=
    (((Watch.Reachable.initial.step (.course _ (.submit _ s "a" .epoch))).step
      (.course _ (.hear _ .spawn [] (List.Perm.refl _)))).step
      (.course _ (.drive _ .epoch (by decide +kernel)))).step (.turn _ (by decide +kernel) (by rfl))
  have hmissed : missed.Reachable .initial :=
    (hinterrupted.step (.course _ (.submit _ s "b" .epoch))).step
      (.course _ (.hear _ .wake [] (List.Perm.refl _)))
  have hx : x.Reachable .initial :=
    (((hmissed.step (.park _ (by decide +kernel))).step
      (.course _ (.drive _ .epoch (by decide +kernel)))).step
      (.turn _ (by decide +kernel) (by rfl))).step (.park _ (by decide +kernel))
  refine ⟨rfl, hmissed, by decide +kernel, by decide +kernel, by decide +kernel,
    queue_attended rfl hmissed, hx, ⟨by decide +kernel, by decide +kernel, by decide +kernel⟩,
    by decide +kernel, queue_attended rfl hx⟩

end ListKeeper
