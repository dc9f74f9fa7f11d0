import ListKeeper.Proofs.Queue.Chronicle
import ListKeeper.Proofs.Queue.Order

/-!
This module contains what a queue remembers of the operations that are over: the last of their
records, and how many of them ended in each way. Both start anew when the queue is cleaned up.
-/

namespace ListKeeper

def Stats.ended (s : Stats) : Status → Nat
  | .completed => s.completed
  | .failed => s.failed
  | .cancelled => s.cancelled

namespace Queue

variable (q : Queue ω α) (now : Timestamp) (status : Status)

theorem ended_congr {q q' : Queue ω α} (hcompleted : q'.completed = q.completed)
    (hfailed : q'.failed = q.failed) (hcancelled : q'.cancelled = q.cancelled) :
    q'.stats.ended status = q.stats.ended status := by
  cases status with
  | completed => exact hcompleted
  | failed => exact hfailed
  | cancelled => exact hcancelled

theorem ended_record (r : Record) :
    (q.record r).stats.ended status = q.stats.ended status + [r].countP (·.status = status) := by
  cases status with
  | completed => simp [record, stats, Stats.ended, List.countP_cons]
  | failed => simp [record, stats, Stats.ended, List.countP_cons]
  | cancelled => simp [record, stats, Stats.ended, List.countP_cons]

theorem ended_cancel (op : Operation ω) :
    (q.cancel op now).stats.ended status =
      q.stats.ended status + [op.cancelledRecord now].countP (·.status = status) := by
  unfold cancel
  rw [ended_record]
  rfl

theorem ended_drain :
    (q.drain now).stats.ended status = q.stats.ended status +
      (q.pending.map (·.cancelledRecord now)).countP (·.status = status) := by
  have hstart : q.stats.ended status =
      ({ q with pending := [] } : Queue ω α).stats.ended status :=
    ended_congr status rfl rfl rfl
  unfold drain
  rw [hstart]
  generalize ({ q with pending := [] } : Queue ω α) = start
  clear hstart
  induction q.pending generalizing start with
  | nil => simp
  | cons op rest ih =>
    rw [List.foldl_cons, ih, ended_cancel]
    simp only [List.map_cons, List.countP_cons, List.countP_nil]
    omega

theorem ended_prune : q.prune.2.stats.ended status = 0 := by
  cases status <;> rfl

theorem ended_drive : (q.drive now).stats.ended status = q.stats.ended status := by
  rcases q.drive_cases now with ⟨op, rest, _, _, hdrive⟩ | ⟨_, hdrive⟩ | ⟨_, _, _, hdrive⟩
  · rw [hdrive]
    exact ended_congr status rfl rfl rfl
  · rw [hdrive]
    exact ended_congr status rfl rfl rfl
  · rw [hdrive]
    exact ended_congr status rfl rfl rfl

theorem length_keepLast (n : Nat) (as : List β) : (keepLast n as).length = min as.length n := by
  unfold keepLast
  rw [List.length_drop]
  omega

theorem cancelAll_eq_drain {f : Queue ω α → β}
    (hf : ∀ (q : Queue ω α) signal, f (q.receive signal) = f q) :
    f (q.cancelAll now).2.2 = f (q.drain now) := by
  unfold cancelAll
  by_cases hpending : 0 < q.pending.length
  · simp only [hpending, if_true]
    exact hf _ .wake
  · simp only [hpending, if_false]
    have hnil : q.pending = [] := List.eq_nil_of_length_eq_zero (by omega)
    unfold drain
    rw [hnil, List.foldl_nil]
    congr 1
    cases q
    cases hnil
    rfl

theorem count_cancelAll : (q.cancelAll now).1 = q.pending.length := by
  unfold cancelAll
  by_cases hpending : 0 < q.pending.length
  · simp only [hpending, if_true]
  · simp only [hpending, if_false]
    omega

end Queue

inductive Happening.Leaves : Happening ω α → Record → Prop
  | ended (r : Running ω) (ending : Ending α) (now : Timestamp) :
    Leaves (.ended r ending) (r.record ending now)
  | cancelled (op : Operation ω) (now : Timestamp) :
    Leaves (.cancelled op) (op.cancelledRecord now)

namespace Course

variable (c : Course ω α)

def followEnds (ends : List (Happening ω α)) : Happening ω α → List (Happening ω α)
  | .ended r ending => ends ++ [.ended r ending]
  | .cancelled op => ends ++ [.cancelled op]
  | .pruned => []
  | _ => ends

def recentEnds : List (Happening ω α) :=
  c.trace.foldl followEnds []

theorem recentEnds_append {c c' : Course ω α} (news : List (Happening ω α))
    (h : c'.trace = c.trace ++ news) : c'.recentEnds = news.foldl followEnds c.recentEnds := by
  unfold recentEnds
  rw [h, List.foldl_append]

theorem recentEnds_drive (now : Timestamp) : (c.drive now).recentEnds = c.recentEnds := by
  rw [recentEnds_append _ rfl]
  cases c.queue.move with
  | start op rest => rfl
  | wait => rfl
  | leave => rfl

theorem recentEnds_cancelAll (now : Timestamp) :
    (c.cancelAll now).recentEnds = c.recentEnds ++ c.queue.pending.map .cancelled := by
  rw [recentEnds_append (c.queue.pending.map .cancelled) rfl]
  generalize c.recentEnds = ends
  induction c.queue.pending generalizing ends with
  | nil => simp
  | cons op rest ih =>
    rw [List.map_cons, List.foldl_cons, ih]
    simp [followEnds]

end Course

namespace Chronicle

variable (x : Chronicle ω α)

def recent : List Record :=
  (x.records.drop x.forgotten).map (·.2)

structure Adds (x' : Chronicle ω α) (news : List Record) : Prop where
  recent : x'.recent = x.recent ++ news
  ended (status : Status) : x'.queue.stats.ended status =
    x.queue.stats.ended status + news.countP (·.status = status)
  ends : ∃ ends, x'.course.recentEnds = x.course.recentEnds ++ ends ∧
    List.Forall₂ Happening.Leaves ends news

structure Blank : Prop where
  recent : x.recent = []
  ended (status : Status) : x.queue.stats.ended status = 0
  ends : x.course.recentEnds = []

section Steps

variable {x} {x' : Chronicle ω α}

theorem recent_append (h : x.forgotten ≤ x.records.length) (news : List (Nat × Record)) :
    ((x.records ++ news).drop x.forgotten).map (·.2) = x.recent ++ news.map (·.2) := by
  rw [List.drop_append_of_le_length h, List.map_append]
  rfl

theorem adds_nil (hrecent : x'.recent = x.recent)
    (hended : ∀ status, x'.queue.stats.ended status = x.queue.stats.ended status)
    (hends : x'.course.recentEnds = x.course.recentEnds) : x.Adds x' [] := by
  refine ⟨?_, ?_, [], ?_, .nil⟩
  · rw [hrecent, List.append_nil]
  · intro status
    rw [hended, List.countP_nil, Nat.add_zero]
  · rw [hends, List.append_nil]

theorem adds_finish (h : x.forgotten ≤ x.records.length) (now : Timestamp) (r : Running ω)
    (attempt : Attempt α) : x.Adds (x.finish now r attempt) (r.recorded attempt now) := by
  have hrecent : (x.finish now r attempt).recent = x.recent ++ r.recorded attempt now := by
    have hmap : ((r.recorded attempt now).map (r.ticket, ·)).map (·.2) =
        r.recorded attempt now := by
      rw [List.map_map]
      exact List.map_id _
    exact (recent_append h _).trans (congrArg _ hmap)
  have hcourse : (x.finish now r attempt).course = x.course.finish r attempt now := rfl
  have hqueue : (x.finish now r attempt).queue = (x.course.finish r attempt now).queue := rfl
  refine ⟨hrecent, ?_, ?_⟩
  · intro status
    rw [hqueue]
    unfold Course.finish Running.recorded
    rcases r.verdict attempt with failure | ⟨notices, ending⟩
    · rfl
    · show Stats.ended ((Queue.record _ _).stats) status = _
      rw [Queue.ended_record]
      exact congrArg (· + _) (Queue.ended_congr status rfl rfl rfl)
  · rw [hcourse]
    unfold Course.finish Running.recorded
    rcases r.verdict attempt with failure | ⟨notices, ending⟩
    · refine ⟨[], ?_, .nil⟩
      rw [Course.recentEnds_append [.attempted r.operation attempt] rfl, List.append_nil]
      rfl
    · refine ⟨[.ended r ending], ?_, .cons (.ended r ending now) .nil⟩
      rw [Course.recentEnds_append [.attempted r.operation attempt, .ended r ending] rfl]
      rfl

theorem adds_cancelAll (h : x.forgotten ≤ x.records.length) (now : Timestamp) :
    x.Adds (x.cancelAll now) (x.queue.pending.map (·.cancelledRecord now)) := by
  refine ⟨?_, ?_, x.queue.pending.map .cancelled, ?_, ?_⟩
  · refine (recent_append h _).trans ?_
    rw [List.map_map]
    rfl
  · exact x.queue.ended_drain now
  · exact x.course.recentEnds_cancelAll now
  · rw [List.forall₂_map_left_iff, List.forall₂_map_right_iff, List.forall₂_same]
    intro op _
    exact .cancelled op now

theorem blank_prune : x.prune.Blank where
  recent := by
    show (x.records.drop x.records.length).map (·.2) = []
    rw [List.drop_length, List.map_nil]
  ended := x.queue.ended_prune
  ends := Course.recentEnds_append [.pruned] rfl

theorem Step.adds (hstep : x.Step x') (h : x.forgotten ≤ x.records.length) :
    (∃ news, x.Adds x' news) ∨ x'.Blank := by
  cases hstep with
  | submit s mark now =>
    refine .inl ⟨[], adds_nil rfl ?_ ?_⟩
    · exact fun status => Queue.ended_congr status rfl rfl rfl
    · exact Course.recentEnds_append [.enqueued _] rfl
  | hear signal others _ =>
    refine .inl ⟨[], adds_nil rfl ?_ rfl⟩
    exact fun status => Queue.ended_congr status rfl rfl rfl
  | drive now _ =>
    refine .inl ⟨[], adds_nil rfl ?_ ?_⟩
    · exact x.queue.ended_drive now
    · exact x.course.recentEnds_drive now
  | invoke r _ _ =>
    refine .inl ⟨[], adds_nil rfl ?_ ?_⟩
    · exact fun status => Queue.ended_congr status rfl rfl rfl
    · exact Course.recentEnds_append [.invoked r.operation] rfl
  | finish r attempt now _ _ => exact .inl ⟨_, adds_finish h now r attempt⟩
  | cancelAll now => exact .inl ⟨_, adds_cancelAll h now⟩
  | prune => exact .inr blank_prune

end Steps

section Memory

variable {config : QueueConfig} {x}

theorem Reachable.ended (h : x.Reachable config) (status : Status) :
    x.queue.stats.ended status = x.recent.countP (·.status = status) := by
  induction h with
  | initial => cases status <;> rfl
  | step hreach hstep ih =>
    rcases hstep.adds hreach.history.1 with ⟨news, hadds⟩ | hblank
    · rw [hadds.ended, hadds.recent, List.countP_append, ih]
    · rw [hblank.ended, hblank.recent, List.countP_nil]

theorem Reachable.leaves (h : x.Reachable config) :
    List.Forall₂ Happening.Leaves x.course.recentEnds x.recent := by
  induction h with
  | initial => exact .nil
  | step hreach hstep ih =>
    rcases hstep.adds hreach.history.1 with ⟨news, hadds⟩ | hblank
    · obtain ⟨ends, hends, hleaves⟩ := hadds.ends
      rw [hends, hadds.recent]
      exact List.rel_append ih hleaves
    · rw [hblank.ends, hblank.recent]
      exact .nil

theorem Reachable.maxHistory (h : x.Reachable config) :
    x.queue.config.maxHistory = config.maxHistory :=
  congrArg _ h.course.config_eq

theorem Reachable.history_cancelAll (h : x.Reachable config) (now : Timestamp) :
    (x.queue.cancelAll now).2.2.history = Queue.keepLast config.maxHistory.toNat
      (x.recent ++ x.queue.pending.map (·.cancelledRecord now)) := by
  rw [x.queue.cancelAll_eq_drain (f := (·.history)) now fun _ _ => rfl,
    x.queue.history_drain now h.history.2, h.maxHistory]
  rfl

theorem Reachable.ended_cancelAll (h : x.Reachable config) (now : Timestamp) (status : Status) :
    (x.queue.cancelAll now).2.2.stats.ended status =
      (x.recent ++ x.queue.pending.map (·.cancelledRecord now)).countP (·.status = status) := by
  have hsignal (q : Queue ω α) (signal : Signal) :
      (q.receive signal).stats.ended status = q.stats.ended status :=
    Queue.ended_congr status rfl rfl rfl
  rw [x.queue.cancelAll_eq_drain (f := (·.stats.ended status)) now hsignal,
    x.queue.ended_drain, h.ended, List.countP_append]

end Memory

structure CancelsInOrder (max : Nat) (now : Timestamp) : Prop where
  dispatch : x.queue.pending.Pairwise Operation.Precedes
  count : (x.queue.cancelAll now).1 = x.queue.pending.length
  recent : (x.cancelAll now).recent = x.recent ++ x.queue.pending.map (·.cancelledRecord now)
  history : (x.queue.cancelAll now).2.2.history = Queue.keepLast max (x.cancelAll now).recent
  ended (status : Status) : (x.queue.cancelAll now).2.2.stats.ended status =
    (x.cancelAll now).recent.countP (·.status = status)

end Chronicle

namespace Queue

def readied (q : Queue ω α) (cancelPending : Bool) (now : Timestamp) : Queue ω α :=
  if cancelPending then (q.cancelAll now).2.2 else q

structure Forgot (q q' : Queue ω α) : Prop where
  history : q'.history = []
  ended (status : Status) : q'.stats.ended status = 0
  running : q'.running = q.running
  pending : q'.pending = q.pending
  results : q'.results = q.results

theorem forgot_prune (q : Queue ω α) : q.Forgot q.prune.2 :=
  ⟨rfl, q.ended_prune, rfl, rfl, rfl⟩

end Queue

namespace Chronicle

variable (x : Chronicle ω α)

structure CleansUp (max : Nat) (cancelPending : Bool) (now : Timestamp) : Prop where
  cancelled : (x.queue.cleanup cancelPending now).1.1 =
    if cancelPending then x.queue.pending.length else 0
  pruned : (x.queue.cleanup cancelPending now).1.2 =
    (x.queue.readied cancelPending now).history.length
  length : (x.queue.readied cancelPending now).history.length =
    min (x.recent.length + (x.queue.cleanup cancelPending now).1.1) max
  forgot : (x.queue.readied cancelPending now).Forgot (x.queue.cleanup cancelPending now).2.2
  running : (x.queue.cleanup cancelPending now).2.2.running = x.queue.running
  pending : (x.queue.cleanup cancelPending now).2.2.pending =
    if cancelPending then [] else x.queue.pending

/--
What a queue remembers of the operations that have ended since the last cleanup: the last of their
records, as many as it may keep, and how many of all of them ended in each way.

A cleanup that cancels what is pending consists of two steps, and anything may happen between them;
therefore it is also said what the second one does in any state.
-/
structure Remembers (max : Nat) : Prop where
  leaves : List.Forall₂ Happening.Leaves x.course.recentEnds x.recent
  kept : x.queue.history <:+ x.recent
  length : x.queue.history.length = min x.recent.length max
  ended (status : Status) : x.queue.stats.ended status = x.recent.countP (·.status = status)
  cancels (now : Timestamp) : x.CancelsInOrder max now
  cleansUp (cancelPending : Bool) (now : Timestamp) : x.CleansUp max cancelPending now
  pruned : x.queue.prune.1 = min x.recent.length max
  forgot : x.queue.Forgot x.prune.queue
  blank : x.prune.Blank

section Memory

variable {config : QueueConfig} {x} (h : x.Reachable config)
include h

theorem Reachable.history_eq :
    x.queue.history = Queue.keepLast config.maxHistory.toNat x.recent := by
  rw [h.history.2, h.maxHistory]
  rfl

theorem Reachable.cancelsInOrder (now : Timestamp) :
    x.CancelsInOrder config.maxHistory.toNat now := by
  have hrecent := (adds_cancelAll h.history.1 now).recent
  refine ⟨h.course.pairwise_pending, x.queue.count_cancelAll now, hrecent, ?_, ?_⟩
  · rw [hrecent]
    exact h.history_cancelAll now
  · intro status
    rw [hrecent]
    exact h.ended_cancelAll now status

theorem Reachable.cleansUp (cancelPending : Bool) (now : Timestamp) :
    x.CleansUp config.maxHistory.toNat cancelPending now := by
  cases cancelPending with
  | false =>
    refine ⟨rfl, rfl, ?_, x.queue.forgot_prune, rfl, rfl⟩
    show x.queue.history.length = min (x.recent.length + 0) _
    rw [h.history_eq, Queue.length_keepLast, Nat.add_zero]
  | true =>
    have hcount : (x.queue.cleanup true now).1.1 = x.queue.pending.length :=
      x.queue.count_cancelAll now
    refine ⟨hcount, rfl, ?_, (x.queue.cancelAll now).2.2.forgot_prune, ?_, ?_⟩
    · show (x.queue.cancelAll now).2.2.history.length = _
      rw [hcount, h.history_cancelAll, Queue.length_keepLast, List.length_append, List.length_map]
    · show (x.queue.cancelAll now).2.2.running = _
      rw [x.queue.cancelAll_eq_drain (f := (·.running)) now fun _ _ => rfl]
      exact x.queue.running_drain now
    · show (x.queue.cancelAll now).2.2.pending = _
      rw [x.queue.cancelAll_eq_drain (f := (·.pending)) now fun _ _ => rfl]
      exact x.queue.pending_drain now

end Memory
end Chronicle

/--
In every state that a queue can get into, by steps in any order, its history is the end of what was
recorded since the last cleanup, with no more entries than it may have, while its counts are those
of all these records.
-/
theorem queue_remembers {config : QueueConfig} {x : Chronicle ω α} (h : x.Reachable config) :
    x.Remembers config.maxHistory.toNat where
  leaves := h.leaves
  kept := by
    rw [h.history_eq]
    exact List.drop_suffix _ _
  length := by rw [h.history_eq, Queue.length_keepLast]
  ended := h.ended
  cancels := h.cancelsInOrder
  cleansUp := h.cleansUp
  pruned := by
    show x.queue.history.length = _
    rw [h.history_eq, Queue.length_keepLast]
  forgot := x.queue.forgot_prune
  blank := Chronicle.blank_prune

/--
A queue that may keep two records has completed an operation, runs another one, and two are pending.
A cleanup cancels these two, and of the three records it finds the last two.
-/
theorem queue_remembers_cleanup :
    let config : QueueConfig := { QueueConfig.initial with maxConcurrent := 2, maxHistory := 2 }
    let op (ticket : Nat) (id : String) (priority : Priority) : Operation Unit :=
      ⟨ticket, id, "sync", priority, 3, .ofMillis 1000, .epoch, ()⟩
    let ask (id : String) (priority : Priority) (x : Chronicle Unit Nat) :=
      x.submit .epoch ⟨"sync", some id, priority, none, none, ()⟩ ""
    let waiting : Chronicle Unit Nat := (Chronicle.initial config)
      |> ask "a" .critical |> ask "b" .critical |> ask "c" .low |> ask "d" .high
    let heard := waiting.silently (waiting.course.hear .spawn [.wake, .wake, .wake])
    let first := heard.silently (heard.course.drive .epoch)
    let second := first.silently (first.course.drive .epoch)
    let invoked := second.silently (second.course.invoke ⟨op 1 "a" .critical, .epoch, 0⟩)
    let x := invoked.finish .epoch ⟨op 1 "a" .critical, .epoch, 1⟩ (.succeeded 7)
    x.Reachable config ∧ x.Remembers 2 ∧ x.queue.stats = ⟨2, 1, 1, 0, 0, true⟩ ∧
      (x.queue.cancelAll .epoch).2.2.history.map (·.id) = ["d", "c"] ∧
      (x.queue.cancelAll .epoch).2.2.stats = ⟨0, 1, 1, 0, 2, true⟩ ∧
      (x.queue.cleanup true .epoch).1 = (2, 2) ∧ (x.queue.cleanup false .epoch).1 = (0, 1) ∧
      (x.queue.cleanup true .epoch).2.2.stats = ⟨0, 1, 0, 0, 0, true⟩ := by
  intro config op ask waiting heard first second invoked x
  have hwaiting : waiting.Reachable config :=
    (((Chronicle.Reachable.initial.step (.submit _ _ _ _)).step (.submit _ _ _ _)).step
      (.submit _ _ _ _)).step (.submit _ _ _ _)
  have hsecond : second.Reachable config :=
    ((hwaiting.step (.hear _ .spawn [.wake, .wake, .wake] (List.Perm.refl _))).step
      (.drive _ .epoch (by decide +kernel))).step (.drive _ .epoch (by decide +kernel))
  have hx : x.Reachable config :=
    (hsecond.step (.invoke _ _ (by decide +kernel) (by decide +kernel))).step
      (.finish _ _ _ .epoch (by decide +kernel) (by decide +kernel))
  exact ⟨hx, queue_remembers hx, by decide +kernel, by decide +kernel, by decide +kernel,
    by decide +kernel, by decide +kernel, by decide +kernel⟩

end ListKeeper
