import ListKeeper.Proofs.Index
import ListKeeper.Proofs.Queue.Basic
import ListKeeper.Proofs.Queue.Run
import Mathlib.Data.List.Nodup

/-!
This module contains the account of all operations that were ever given to a queue. In every state
that steps can lead to, in any order, each of them is in one place, and its caller has got a result
exactly when it has reached its end.
-/

namespace ListKeeper

/--
The books of a queue are in order: tickets grow, each operation is pending, has started or was
cancelled, each one that has started is running or over, and the results are those of the operations
that have reached their end. A queue at rest is empty.
-/
structure Accounted (q : Queue ω α) (b : Books ω α) : Prop where
  tickets : (b.enqueued.map (·.ticket)).Pairwise (· < ·)
  lastTicket : ∀ op ∈ b.enqueued, op.ticket ≤ q.lastTicket
  whereabouts : b.enqueued.Perm (q.pending ++ (b.started ++ b.cancelled))
  slots : b.started.Perm (q.running.map (·.operation) ++ b.ended.map (·.1.operation))
  results : q.results.Perm b.resolutions
  invoked : ∀ op ∈ b.invoked, op ∈ b.started
  endings : ∀ r ending, (r, ending) ∈ b.ended → ∃ attempt notices,
    (r.operation, attempt) ∈ b.attempted ∧ r.verdict attempt = .over notices ending
  idle : q.processing = false → q.pending = [] ∧ q.running = []

theorem perm_append_last (as bs : List α) (a : α) :
    ((as ++ bs) ++ [a]).Perm ((as ++ [a]) ++ bs) := by
  rw [List.append_assoc, List.append_assoc]
  exact List.perm_append_comm.append_left as

theorem Books.resolutions_note_ended (b : Books ω α) (r : Running ω) (ending : Ending α) :
    (b.resolutions ++ [(r.ticket, ending.result)]).Perm (b.note (.ended r ending)).resolutions := by
  unfold resolutions note
  rw [List.map_append]
  exact perm_append_last _ _ _

theorem perm_cons_filter_of_nodup {key : α → Nat} {as : List α} {a : α}
    (hnodup : (as.map key).Nodup) (ha : a ∈ as) :
    as.Perm (a :: as.filter fun b => key b != key a) := by
  induction as with
  | nil => contradiction
  | cons first rest ih =>
    rw [List.map_cons, List.nodup_cons] at hnodup
    rcases List.mem_cons.1 ha with rfl | hmem
    · have hrest : rest.filter (fun b => key b != key a) = rest := by
        rw [List.filter_eq_self]
        intro b hb
        rw [bne_iff_ne]
        intro heq
        exact hnodup.1 (heq ▸ List.mem_map_of_mem hb)
      rw [List.filter_cons_of_neg (by simp), hrest]
    · have hfirst : (key first != key a) = true := by
        rw [bne_iff_ne]
        intro heq
        exact hnodup.1 (heq ▸ List.mem_map_of_mem hmem)
      have hkept : (first :: rest).filter (fun b => key b != key a) =
          first :: rest.filter fun b => key b != key a := List.filter_cons_of_pos hfirst
      rw [hkept]
      exact ((ih hnodup.2 hmem).cons first).trans (List.Perm.swap a first _)

namespace Accounted

variable {q : Queue ω α} {b : Books ω α} {c : Course ω α}

theorem initial (config : QueueConfig) :
    Accounted (Course.initial config : Course ω α).queue (Course.initial config).books where
  tickets := .nil
  lastTicket _ hop := nomatch hop
  whereabouts := .nil
  slots := .nil
  results := .nil
  invoked _ hop := nomatch hop
  endings _ _ hmem := nomatch hmem
  idle _ := ⟨rfl, rfl⟩

theorem submit (h : Accounted c.queue c.books) (s : Submission ω) (mark : String)
    (now : Timestamp) :
    Accounted (c.submit s mark now).queue (c.submit s mark now).books := by
  rw [Course.books_submit]
  refine ⟨?_, ?_, ?_, h.slots, h.results, h.invoked, h.endings, ?_⟩
  · show ((c.books.enqueued ++ [c.queue.admitted s mark now]).map (·.ticket)).Pairwise (· < ·)
    rw [List.map_append, List.pairwise_append]
    refine ⟨h.tickets, List.pairwise_singleton _ _, ?_⟩
    intro ticket hmem ticket' hmem'
    obtain ⟨op, hop, rfl⟩ := List.mem_map.1 hmem
    rw [List.map_singleton, List.mem_singleton] at hmem'
    have hle := h.lastTicket op hop
    have hnew : (c.queue.admitted s mark now).ticket = c.queue.lastTicket + 1 := rfl
    omega
  · intro op hop
    have hlast : (c.submit s mark now).queue.lastTicket = c.queue.lastTicket + 1 := rfl
    rcases List.mem_append.1 hop with hold | hnew
    · have hle := h.lastTicket op hold
      omega
    · rw [List.mem_singleton.1 hnew]
      exact Nat.le_refl _
  · have hplace := Queue.place_perm (c.queue.admitted s mark now) c.queue.pending
    apply (List.perm_append_singleton _ _).trans
    exact (h.whereabouts.cons _).trans (hplace.symm.append_right _)
  · intro hprocessing
    contradiction

theorem hear (h : Accounted c.queue c.books) (signal : Signal) (others : List Signal) :
    Accounted (c.hear signal others).queue (c.hear signal others).books :=
  ⟨h.tickets, h.lastTicket, h.whereabouts, h.slots, h.results, h.invoked, h.endings, h.idle⟩

theorem drive (h : Accounted c.queue c.books) (now : Timestamp) :
    Accounted (c.drive now).queue (c.drive now).books := by
  have hqueue : (c.drive now).queue = c.queue.drive now := rfl
  rw [Course.books_drive, hqueue]
  rcases c.queue.drive_cases now with ⟨op, rest, hmove, hpending, hdrive⟩ | ⟨hmove, hdrive⟩ |
    ⟨hmove, hpending, hrunning, hdrive⟩
  -- The operation that starts leaves the pending ones and gets a slot.
  · rw [hmove, hdrive]
    have hwhere := h.whereabouts
    rw [hpending] at hwhere
    refine ⟨h.tickets, h.lastTicket, ?_, ?_, h.results, ?_, h.endings, ?_⟩
    · have hstarted : (op :: (c.books.started ++ c.books.cancelled)).Perm
          ((c.books.started ++ [op]) ++ c.books.cancelled) :=
        (List.perm_append_singleton op c.books.started).symm.append_right _
      exact hwhere.trans (List.perm_middle.symm.trans (hstarted.append_left rest))
    · have hlast := perm_append_last (c.queue.running.map (·.operation))
        (c.books.ended.map (·.1.operation)) op
      apply ((h.slots.append_right [op]).trans hlast).trans
      rw [List.map_append]
      exact List.Perm.refl _
    · intro other hother
      exact List.mem_append_left _ (h.invoked other hother)
    · intro hprocessing
      rw [(h.idle hprocessing).1] at hpending
      contradiction
  · rw [hmove, hdrive]
    exact ⟨h.tickets, h.lastTicket, h.whereabouts, h.slots, h.results, h.invoked, h.endings, h.idle⟩
  · rw [hmove, hdrive]
    exact ⟨h.tickets, h.lastTicket, h.whereabouts, h.slots, h.results, h.invoked, h.endings,
      fun _ => ⟨hpending, hrunning⟩⟩

theorem invoke (h : Accounted c.queue c.books) {r : Running ω} (hr : r ∈ c.queue.running) :
    Accounted (c.invoke r).queue (c.invoke r).books := by
  rw [Course.books_invoke]
  refine ⟨h.tickets, h.lastTicket, h.whereabouts, ?_, h.results, ?_, h.endings, ?_⟩
  · have hoperations := c.queue.operations_beginAttempt r.ticket
    exact hoperations ▸ h.slots
  · intro op hop
    rcases List.mem_append.1 hop with hold | hnew
    · exact h.invoked op hold
    · rw [List.mem_singleton.1 hnew]
      exact h.slots.mem_iff.2 (List.mem_append_left _ (List.mem_map_of_mem hr))
  · intro hprocessing
    rw [(h.idle hprocessing).2] at hr
    contradiction

theorem nodup_running (h : Accounted q b) : (q.running.map (·.ticket)).Nodup := by
  have htickets : (b.enqueued.map (·.ticket)).Nodup := h.tickets.imp Nat.ne_of_lt
  have hsublist : (q.running.map (·.operation)).Sublist
      (q.pending ++ (q.running.map (·.operation) ++ b.ended.map (·.1.operation) ++ b.cancelled)) :=
    ((List.sublist_append_left _ _).trans (List.sublist_append_left _ _)).trans
      (List.sublist_append_right _ _)
  have hperm := h.whereabouts.trans ((h.slots.append_right b.cancelled).append_left q.pending)
  have hall := (hperm.map (·.ticket)).nodup_iff.1 htickets
  have hrunning := hall.sublist (hsublist.map (·.ticket))
  rw [List.map_map] at hrunning
  exact hrunning

theorem running_perm (h : Accounted q b) {r : Running ω} (hr : r ∈ q.running) :
    q.running.Perm (r :: q.running.filter (·.ticket != r.ticket)) :=
  perm_cons_filter_of_nodup h.nodup_running hr

theorem finish (h : Accounted c.queue c.books) {r : Running ω} (hr : r ∈ c.queue.running)
    (attempt : Attempt α) (now : Timestamp) :
    Accounted (c.finish r attempt now).queue (c.finish r attempt now).books := by
  rw [Course.books_finish]
  unfold Course.finish
  rcases hverdict : r.verdict attempt with failure | ⟨notices, ending⟩
  · refine ⟨h.tickets, h.lastTicket, h.whereabouts, h.slots, h.results, h.invoked, ?_, h.idle⟩
    intro r' ending hended
    obtain ⟨attempt', notices, hmem, hverdict⟩ := h.endings r' ending hended
    exact ⟨attempt', notices, List.mem_append_left _ hmem, hverdict⟩
  · refine ⟨h.tickets, h.lastTicket, h.whereabouts, ?_, ?_, h.invoked, ?_, ?_⟩
    -- Only the slot of this operation becomes free, as tickets differ.
    · show c.books.started.Perm
        ((c.queue.running.filter (·.ticket != r.ticket)).map (·.operation) ++
          (c.books.ended ++ [(r, ending)]).map (·.1.operation))
      have hperm := ((h.running_perm hr).map (·.operation)).append_right
        (c.books.ended.map (·.1.operation))
      rw [List.map_append, ← List.append_assoc]
      exact (h.slots.trans hperm).trans (List.perm_append_singleton _ _).symm
    · exact (h.results.append_right _).trans (Books.resolutions_note_ended c.books r ending)
    · intro r' ending' hended
      rcases List.mem_append.1 hended with hold | hnew
      · obtain ⟨attempt', notices', hmem, hverdict'⟩ := h.endings r' ending' hold
        exact ⟨attempt', notices', List.mem_append_left _ hmem, hverdict'⟩
      · cases List.mem_singleton.1 hnew
        exact ⟨attempt, notices, List.mem_append_right _ (List.mem_singleton.2 rfl), hverdict⟩
    · intro hprocessing
      rw [(h.idle hprocessing).2] at hr
      contradiction

theorem cancelAll (h : Accounted c.queue c.books) (now : Timestamp) :
    Accounted (c.cancelAll now).queue (c.cancelAll now).books := by
  rw [Course.books_cancelAll]
  have hqueue : (c.cancelAll now).queue = c.queue.drain now := rfl
  rw [hqueue]
  refine ⟨h.tickets, ?_, ?_, ?_, ?_, h.invoked, h.endings, ?_⟩
  · intro op hop
    rw [Queue.lastTicket_drain]
    exact h.lastTicket op hop
  · rw [Queue.pending_drain, List.nil_append, ← List.append_assoc]
    exact h.whereabouts.trans List.perm_append_comm
  · rw [Queue.running_drain]
    exact h.slots
  · rw [Queue.results_drain]
    apply (h.results.append_right _).trans
    unfold Books.resolutions
    rw [List.append_assoc, ← List.map_append]
  · rw [Queue.processing_drain, Queue.pending_drain, Queue.running_drain]
    intro hprocessing
    exact ⟨rfl, (h.idle hprocessing).2⟩

theorem prune (h : Accounted c.queue c.books) : Accounted c.prune.queue c.prune.books := by
  rw [Course.books_prune]
  exact ⟨h.tickets, h.lastTicket, h.whereabouts, h.slots, h.results, h.invoked, h.endings, h.idle⟩

theorem step {c' : Course ω α} (h : Accounted c.queue c.books) (hstep : c.Step c') :
    Accounted c'.queue c'.books := by
  cases hstep with
  | submit s mark now => exact h.submit s mark now
  | hear signal others _ => exact h.hear signal others
  | drive now _ => exact h.drive now
  | invoke r hr _ => exact h.invoke hr
  | finish r attempt now hr _ => exact h.finish hr attempt now
  | cancelAll now => exact h.cancelAll now
  | prune => exact h.prune

end Accounted

theorem Course.Reachable.accounted {config : QueueConfig} {c : Course ω α}
    (h : c.Reachable config) : Accounted c.queue c.books := by
  induction h with
  | initial => exact .initial config
  | step _ hstep ih => exact ih.step hstep

inductive Operation.Earned (op : Operation ω) (attempted : List (Operation ω × Attempt α)) :
    Except Error α → Prop
  | value (a : α) (h : (op, .succeeded a) ∈ attempted) : Earned op attempted (.ok a)
  | exhausted (attempts : UInt32) (error : String) (h : (op, .failed error) ∈ attempted) :
    Earned op attempted (.error (.retriesExhausted op.name attempts error))
  | crashed (h : (op, .crashed) ∈ attempted) : Earned op attempted (.error op.loss)

theorem Operation.Earned.ne_cancellation {op : Operation ω}
    {attempted : List (Operation ω × Attempt α)} {result : Except Error α}
    (h : op.Earned attempted result) (op' : Operation ω) : result ≠ .error op'.cancellation := by
  cases h with
  | value a _ => exact fun heq => nomatch heq
  | exhausted attempts error _ => exact fun heq => nomatch heq
  | crashed _ => exact fun heq => nomatch heq

theorem Running.earned_of_verdict {r : Running ω} {attempt : Attempt α} {notices : List Notice}
    {ending : Ending α} {attempted : List (Operation ω × Attempt α)}
    (h : r.verdict attempt = .over notices ending) (hmem : (r.operation, attempt) ∈ attempted) :
    r.operation.Earned attempted ending.result := by
  cases attempt with
  | succeeded a =>
    cases h
    exact .value a hmem
  | failed error =>
    simp only [verdict] at h
    split at h
    · cases h
      exact .exhausted r.attempts error hmem
    · contradiction
  | crashed =>
    cases h
    exact .crashed hmem

/--
All operations are accounted for: each of them is pending, running or has reached its end, and only
one of these, as no two have the same ticket. The caller of an operation has got a result, and only
one, exactly when the operation has reached its end.
-/
structure AllAccounted (q : Queue ω α) (b : Books ω α) : Prop where
  onePlace : b.enqueued.Perm (q.pending ++ q.running.map (·.operation) ++ b.terminal)
  distinct : (b.enqueued.map (·.ticket)).Nodup
  total : b.enqueued.length = q.pending.length + q.running.length + b.terminal.length
  resolvedOnce : (q.results.map (·.1)).Nodup
  resolved : ∀ op ∈ b.enqueued, (q.result? op.ticket).isSome ↔ op ∈ b.terminal
  cancelled : ∀ op ∈ b.enqueued,
    q.result? op.ticket = some (.error (.cancelled op.id op.name)) ↔ op ∈ b.cancelled
  neverInvoked : ∀ op ∈ b.cancelled, op ∉ b.started ∧ op ∉ b.invoked
  earned : ∀ op ∈ b.started, op ∉ b.cancelled ∧
    ∀ result, q.result? op.ticket = some result → op.Earned b.attempted result
  idle : q.processing = false → ∀ op ∈ b.enqueued, (q.result? op.ticket).isSome

namespace Accounted

variable {q : Queue ω α} {b : Books ω α}

theorem onePlace (h : Accounted q b) :
    b.enqueued.Perm (q.pending ++ q.running.map (·.operation) ++ b.terminal) := by
  apply (h.whereabouts.trans ((h.slots.append_right b.cancelled).append_left q.pending)).trans
  unfold Books.terminal
  simp only [List.append_assoc]
  exact List.Perm.refl _

theorem distinct (h : Accounted q b) : (b.enqueued.map (·.ticket)).Nodup :=
  h.tickets.imp Nat.ne_of_lt

theorem eq_of_ticket (h : Accounted q b) {op op' : Operation ω} (hop : op ∈ b.enqueued)
    (hop' : op' ∈ b.enqueued) (hticket : op.ticket = op'.ticket) : op = op' :=
  List.inj_on_of_nodup_map h.distinct hop hop' hticket

theorem mem_of_terminal (h : Accounted q b) {op : Operation ω} (hop : op ∈ b.terminal) :
    op ∈ b.enqueued :=
  h.onePlace.mem_iff.2 (List.mem_append_right _ hop)

theorem mem_of_started (h : Accounted q b) {op : Operation ω} (hop : op ∈ b.started) :
    op ∈ b.enqueued :=
  h.whereabouts.mem_iff.2 (List.mem_append_right _ (List.mem_append_left _ hop))

theorem notMem_started (h : Accounted q b) {op : Operation ω} (hop : op ∈ b.cancelled) :
    op ∉ b.started := by
  intro hstarted
  have hnodup := (h.whereabouts.map (·.ticket)).nodup_iff.1 h.distinct
  rw [List.map_append, List.nodup_append, List.map_append, List.nodup_append] at hnodup
  exact hnodup.2.1.2.2 _ (List.mem_map_of_mem hstarted) _ (List.mem_map_of_mem hop) rfl

theorem map_fst_resolutions (b : Books ω α) :
    b.resolutions.map (·.1) = b.terminal.map (·.ticket) := by
  unfold Books.resolutions Books.terminal
  simp only [List.map_append, List.map_map]
  rfl

theorem resolvedOnce (h : Accounted q b) : (q.results.map (·.1)).Nodup := by
  rw [(h.results.map (·.1)).nodup_iff, map_fst_resolutions]
  have hnodup := (h.onePlace.map (·.ticket)).nodup_iff.1 h.distinct
  rw [List.map_append, List.nodup_append] at hnodup
  exact hnodup.2.1

theorem result?_eq_some_iff (h : Accounted q b) {op : Operation ω} (hop : op ∈ b.enqueued)
    (result : Except Error α) :
    q.result? op.ticket = some result ↔
      (∃ r ending, (r, ending) ∈ b.ended ∧ r.operation = op ∧ ending.result = result) ∨
        op ∈ b.cancelled ∧ .error op.cancellation = result := by
  unfold Queue.result?
  rw [← mem_iff_lookup h.resolvedOnce, h.results.mem_iff]
  unfold Books.resolutions
  rw [List.mem_append, List.mem_map, List.mem_map]
  -- A ticket belongs to one operation, whatever the ids of callers are.
  constructor
  · rintro (⟨⟨r, ending⟩, hmem, heq⟩ | ⟨op', hmem, heq⟩)
    · injection heq with hticket hresult
      have hended : r.operation ∈ b.terminal := List.mem_append_left _ (List.mem_map_of_mem hmem)
      have hoperation := h.eq_of_ticket (h.mem_of_terminal hended) hop hticket
      exact .inl ⟨r, ending, hmem, hoperation, hresult⟩
    · injection heq with hticket hresult
      have hcancelled : op' ∈ b.terminal := List.mem_append_right _ hmem
      rw [h.eq_of_ticket (h.mem_of_terminal hcancelled) hop hticket] at hmem hresult
      exact .inr ⟨hmem, hresult⟩
  · rintro (⟨r, ending, hmem, rfl, rfl⟩ | ⟨hmem, rfl⟩)
    · exact .inl ⟨(r, ending), hmem, rfl⟩
    · exact .inr ⟨op, hmem, rfl⟩

theorem isSome_result?_iff (h : Accounted q b) {op : Operation ω} (hop : op ∈ b.enqueued) :
    (q.result? op.ticket).isSome ↔ op ∈ b.terminal := by
  rw [Option.isSome_iff_exists]
  unfold Books.terminal
  rw [List.mem_append, List.mem_map]
  constructor
  · rintro ⟨result, hresult⟩
    rcases (h.result?_eq_some_iff hop result).1 hresult with ⟨r, ending, hmem, hr, _⟩ | ⟨hmem, _⟩
    · exact .inl ⟨(r, ending), hmem, hr⟩
    · exact .inr hmem
  · rintro (⟨⟨r, ending⟩, hmem, hr⟩ | hmem)
    · exact ⟨_, (h.result?_eq_some_iff hop _).2 (.inl ⟨r, ending, hmem, hr, rfl⟩)⟩
    · exact ⟨_, (h.result?_eq_some_iff hop _).2 (.inr ⟨hmem, rfl⟩)⟩

theorem earned (h : Accounted q b) {r : Running ω} {ending : Ending α}
    (hended : (r, ending) ∈ b.ended) : r.operation.Earned b.attempted ending.result := by
  obtain ⟨attempt, notices, hmem, hverdict⟩ := h.endings r ending hended
  exact Running.earned_of_verdict hverdict hmem

theorem allAccounted (h : Accounted q b) : AllAccounted q b where
  onePlace := h.onePlace
  distinct := h.distinct
  total := by
    rw [h.onePlace.length_eq]
    simp only [List.length_append, List.length_map]
  resolvedOnce := h.resolvedOnce
  resolved op hop := h.isSome_result?_iff hop
  cancelled := by
    intro op hop
    constructor
    · intro hresult
      rcases (h.result?_eq_some_iff hop _).1 hresult with ⟨r, ending, hmem, _, heq⟩ | ⟨hmem, _⟩
      · exact absurd heq ((h.earned hmem).ne_cancellation op)
      · exact hmem
    · intro hmem
      exact (h.result?_eq_some_iff hop _).2 (.inr ⟨hmem, rfl⟩)
  neverInvoked := by
    intro op hop
    have hstarted := h.notMem_started hop
    exact ⟨hstarted, fun hinvoked => hstarted (h.invoked op hinvoked)⟩
  earned := by
    intro op hop
    refine ⟨fun hcancelled => h.notMem_started hcancelled hop, ?_⟩
    intro result hresult
    rcases (h.result?_eq_some_iff (h.mem_of_started hop) result).1 hresult with
      ⟨r, ending, hmem, rfl, rfl⟩ | ⟨hmem, _⟩
    · exact h.earned hmem
    · exact absurd hop (h.notMem_started hmem)
  idle := by
    intro hprocessing op hop
    obtain ⟨hpending, hrunning⟩ := h.idle hprocessing
    rw [h.isSome_result?_iff hop]
    have hplace := h.onePlace.mem_iff.1 hop
    rw [hpending, hrunning] at hplace
    exact hplace

end Accounted

/--
In every state that a queue can get into, by steps in any order, all operations are accounted for.
-/
theorem queue_allAccounted {config : QueueConfig} {c : Course ω α} (h : c.Reachable config) :
    AllAccounted c.queue c.books :=
  h.accounted.allAccounted

/--
Of two operations with the same id, the first one starts, the second one is cancelled while the
first one runs, and then the first one succeeds.
-/
theorem queue_allAccounted_sameId :
    let s : Submission Unit := ⟨"sync", some "job", .medium, none, none, ()⟩
    let op : Operation Unit := ⟨1, "job", "sync", .medium, 3, .ofMillis 1000, .epoch, ()⟩
    let c : Course Unit Nat := (Course.initial .initial)
      |>.submit s "" .epoch
      |>.submit s "" .epoch
      |>.hear .spawn [.wake]
      |>.drive .epoch
      |>.invoke ⟨op, .epoch, 0⟩
      |>.cancelAll .epoch
      |>.finish ⟨op, .epoch, 1⟩ (.succeeded 7) .epoch
    c.Reachable .initial ∧
      c.queue.results = [(2, .error (.cancelled "job" "sync")), (1, .ok 7)] ∧
      AllAccounted c.queue c.books := by
  intro s op c
  have hreach : c.Reachable .initial := by
    apply Course.Reachable.step _ (.finish _ _ _ _ (by decide +kernel) (by decide +kernel))
    apply Course.Reachable.step _ (.cancelAll _ _)
    apply Course.Reachable.step _ (.invoke _ _ (by decide +kernel) (by decide +kernel))
    apply Course.Reachable.step _ (.drive _ _ (by decide +kernel))
    apply Course.Reachable.step _ (.hear _ _ _ (List.Perm.refl _))
    exact (Course.Reachable.initial.step (.submit _ _ _ _)).step (.submit _ _ _ _)
  exact ⟨hreach, rfl, queue_allAccounted hreach⟩

end ListKeeper
