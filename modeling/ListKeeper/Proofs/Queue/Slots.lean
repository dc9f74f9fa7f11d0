import ListKeeper.Proofs.Queue.Accounting
import Mathlib.Logic.Relation

/-!
This module contains the slots of a queue: how many there are, that each belongs to one operation,
and that an operation holds its slot from its start to its end.
-/

namespace ListKeeper

def Running.tenure (r : Running ω) : Operation ω × Timestamp :=
  (r.operation, r.startedAt)

namespace Accounted

variable {q : Queue ω α} {b : Books ω α}

theorem nodup_present (h : Accounted q b) :
    ((q.pending ++ q.running.map (·.operation)).map (·.ticket)).Nodup := by
  have hnodup := (h.onePlace.map (·.ticket)).nodup_iff.1 h.distinct
  rw [List.map_append, List.nodup_append] at hnodup
  exact hnodup.1

theorem ticket_le_lastTicket (h : Accounted q b) {op : Operation ω}
    (hop : op ∈ q.pending ++ q.running.map (·.operation)) : op.ticket ≤ q.lastTicket :=
  h.lastTicket op (h.onePlace.mem_iff.2 (List.mem_append_left _ hop))

theorem ticket_notMem_pending (h : Accounted q b) {op : Operation ω} (hop : op ∈ b.started) :
    op.ticket ∉ q.pending.map (·.ticket) := by
  have hnodup := (h.whereabouts.map (·.ticket)).nodup_iff.1 h.distinct
  rw [List.map_append, List.nodup_append] at hnodup
  intro hpending
  exact hnodup.2.2 _ hpending _ (List.mem_map_of_mem (List.mem_append_left _ hop)) rfl

theorem running_iff_notMem_ended (h : Accounted q b) {op : Operation ω} (hop : op ∈ b.started) :
    op ∈ q.running.map (·.operation) ↔ op ∉ b.ended.map (·.1.operation) := by
  have hnodup := (h.whereabouts.map (·.ticket)).nodup_iff.1 h.distinct
  rw [List.map_append, List.nodup_append, List.map_append, List.nodup_append] at hnodup
  have hslots := (h.slots.map (·.ticket)).nodup_iff.1 hnodup.2.1.1
  rw [List.map_append, List.nodup_append] at hslots
  constructor
  · intro hrunning hended
    exact hslots.2.2 _ (List.mem_map_of_mem hrunning) _ (List.mem_map_of_mem hended) rfl
  · intro hended
    exact (List.mem_append.1 (h.slots.mem_iff.1 hop)).resolve_right hended

end Accounted

namespace Course

variable {c c' : Course ω α}

theorem config_step (hstep : c.Step c') : c'.queue.config = c.queue.config := by
  cases hstep with
  | submit s mark now => rfl
  | hear signal others _ => rfl
  | drive now _ =>
    show (c.queue.drive now).config = c.queue.config
    rcases c.queue.drive_cases now with ⟨_, _, _, _, hdrive⟩ | ⟨_, hdrive⟩ | ⟨_, _, _, hdrive⟩
    · rw [hdrive]
    · rw [hdrive]
    · rw [hdrive]
  | invoke r _ _ => rfl
  | finish r attempt now _ _ =>
    unfold Course.finish
    split
    · rfl
    · rfl
  | cancelAll now => exact c.queue.config_drain now
  | prune => rfl

theorem Reachable.config_eq {config : QueueConfig} (h : c.Reachable config) :
    c.queue.config = config := by
  induction h with
  | initial => rfl
  | step _ hstep ih => exact (config_step hstep).trans ih

inductive SlotStep (c c' : Course ω α) : Prop
  | kept (hslots : c'.queue.running.map (·.tenure) = c.queue.running.map (·.tenure))
    (hstarted : c'.books.started = c.books.started) (hended : c'.books.ended = c.books.ended)
  | given (op : Operation ω) (rest : List (Operation ω)) (now : Timestamp)
    (hpending : c.queue.pending = op :: rest)
    (hfree : c.queue.running.length < c.queue.config.maxConcurrent.toNat)
    (hslots : c'.queue.running = c.queue.running ++ [⟨op, now, 0⟩])
    (hstarted : c'.books.started = c.books.started ++ [op])
    (hended : c'.books.ended = c.books.ended)
  | takenBack (r : Running ω) (ending : Ending α) (hr : r ∈ c.queue.running)
    (hslots : c'.queue.running = c.queue.running.filter (·.ticket != r.ticket))
    (hstarted : c'.books.started = c.books.started)
    (hended : c'.books.ended = c.books.ended ++ [(r, ending)])

theorem Step.slotStep (hstep : c.Step c') : SlotStep c c' := by
  cases hstep with
  | submit s mark now =>
    have hbooks := c.books_submit s mark now
    exact .kept rfl (by rw [hbooks]; rfl) (by rw [hbooks]; rfl)
  | hear signal others _ => exact .kept rfl rfl rfl
  | drive now _ =>
    have hbooks := c.books_drive now
    have hqueue : (c.drive now).queue = c.queue.drive now := rfl
    rcases c.queue.drive_cases now with ⟨op, rest, hmove, hpending, hdrive⟩ | ⟨hmove, hdrive⟩ |
      ⟨hmove, _, _, hdrive⟩
    · rw [hmove] at hbooks
      have hfree := (Queue.move_eq_start_iff.1 hmove).2
      exact .given op rest now hpending hfree (by rw [hqueue, hdrive]) (by rw [hbooks]; rfl)
        (by rw [hbooks]; rfl)
    · rw [hmove] at hbooks
      exact .kept (by rw [hqueue, hdrive]) (by rw [hbooks]) (by rw [hbooks])
    · rw [hmove] at hbooks
      exact .kept (by rw [hqueue, hdrive]) (by rw [hbooks]) (by rw [hbooks])
  | invoke r _ _ =>
    have hbooks := c.books_invoke r
    refine .kept ?_ (by rw [hbooks]; rfl) (by rw [hbooks]; rfl)
    exact c.queue.map_running_beginAttempt (fun _ _ => rfl) r.ticket
  | finish r attempt now hr _ =>
    have hbooks := c.books_finish now r attempt
    unfold Course.finish at hbooks ⊢
    -- A slot that is needed for another attempt is not taken back.
    rcases hverdict : r.verdict attempt with failure | ⟨notices, ending⟩
    · simp only [hverdict] at hbooks ⊢
      exact .kept rfl (by rw [hbooks]; rfl) (by rw [hbooks]; rfl)
    · simp only [hverdict] at hbooks ⊢
      exact .takenBack r ending hr rfl (by rw [hbooks]; rfl) (by rw [hbooks]; rfl)
  | cancelAll now =>
    have hbooks := c.books_cancelAll now
    refine .kept ?_ (by rw [hbooks]) (by rw [hbooks])
    exact congrArg (List.map Running.tenure) (c.queue.running_drain now)
  | prune =>
    have hbooks := c.books_prune
    exact .kept rfl (by rw [hbooks]) (by rw [hbooks])

theorem running_length_step (hstep : c.Step c')
    (h : c.queue.running.length ≤ c.queue.config.maxConcurrent.toNat) :
    c'.queue.running.length ≤ c'.queue.config.maxConcurrent.toNat := by
  rw [config_step hstep]
  cases hstep.slotStep with
  | kept hslots _ _ =>
    have hlength := congrArg List.length hslots
    simp only [List.length_map] at hlength
    omega
  | given op rest now _ hfree hslots _ _ =>
    rw [hslots, List.length_append, List.length_singleton]
    omega
  | takenBack r ending _ hslots _ _ =>
    rw [hslots]
    exact Nat.le_trans (List.length_filter_le _ _) h

theorem Reachable.running_length_le {config : QueueConfig} (h : c.Reachable config) :
    c.queue.running.length ≤ config.maxConcurrent.toNat := by
  rw [← h.config_eq]
  induction h with
  | initial => exact Nat.zero_le _
  | step _ hstep ih => exact running_length_step hstep ih

section Run

/-!
What holds from a state on, whatever the steps are that follow.
-/

theorem Reachable.run {config : QueueConfig} (h : c.Reachable config)
    (hrun : Relation.ReflTransGen Step c c') : c'.Reachable config := by
  induction hrun with
  | refl => exact h
  | tail _ hstep ih => exact ih.step hstep

theorem started_run (hrun : Relation.ReflTransGen Step c c') {op : Operation ω}
    (hop : op ∈ c.books.started) : op ∈ c'.books.started := by
  induction hrun with
  | refl => exact hop
  | tail _ hstep ih =>
    cases hstep.slotStep with
    | kept _ hstarted _ => exact hstarted ▸ ih
    | given _ _ _ _ _ _ hstarted _ => exact hstarted ▸ List.mem_append_left _ ih
    | takenBack _ _ _ _ hstarted _ => exact hstarted ▸ ih

theorem tenure_step (h : Accounted c.queue c.books) (hstep : c.Step c') {r : Running ω}
    (hr : r.tenure ∈ c.queue.running.map (·.tenure)) :
    r.tenure ∈ c'.queue.running.map (·.tenure) ∨
      r.operation ∈ c'.books.ended.map (·.1.operation) := by
  cases hstep.slotStep with
  | kept hslots _ _ => exact .inl (hslots ▸ hr)
  | given op rest now _ _ hslots _ _ =>
    rw [hslots, List.map_append]
    exact .inl (List.mem_append_left _ hr)
  | takenBack ended ending hended hslots _ hbooks =>
    obtain ⟨holder, hholder, htenure⟩ := List.mem_map.1 hr
    have hoperation : holder.operation = r.operation := congrArg Prod.fst htenure
    by_cases hticket : holder.ticket = ended.ticket
    -- Two slots with the same ticket are the same.
    · right
      have heq : holder = ended := List.inj_on_of_nodup_map h.nodup_running hholder hended hticket
      rw [hbooks, List.map_append, ← hoperation, heq]
      exact List.mem_append_right _ (List.mem_singleton.2 rfl)
    · left
      rw [hslots, ← htenure]
      apply List.mem_map_of_mem
      exact List.mem_filter.2 ⟨hholder, bne_iff_ne.2 hticket⟩

theorem ended_step (hstep : c.Step c') {op : Operation ω}
    (hop : op ∈ c.books.ended.map (·.1.operation)) :
    op ∈ c'.books.ended.map (·.1.operation) := by
  cases hstep.slotStep with
  | kept _ _ hended => exact hended ▸ hop
  | given _ _ _ _ _ _ _ hended => exact hended ▸ hop
  | takenBack _ _ _ _ _ hended =>
    rw [hended, List.map_append]
    exact List.mem_append_left _ hop

theorem Reachable.tenure_run {config : QueueConfig} (h : c.Reachable config)
    (hrun : Relation.ReflTransGen Step c c') {r : Running ω} (hr : r ∈ c.queue.running) :
    r.tenure ∈ c'.queue.running.map (·.tenure) ∨
      r.operation ∈ c'.books.ended.map (·.1.operation) := by
  induction hrun with
  | refl => exact .inl (List.mem_map_of_mem hr)
  | tail hrun hstep ih =>
    rcases ih with hheld | hended
    · exact tenure_step (h.run hrun).accounted hstep hheld
    · exact .inr (ended_step hstep hended)

end Run

/--
The slots of a queue are owned: there are never more operations with a slot than the settings allow,
and no two operations that are pending or running have the same ticket. An operation that starts
gets a slot of its own, and one that is over gives back its own slot and no other. In between it
keeps its slot whatever happens, and it is never pending again.
-/
structure SlotsOwned (config : QueueConfig) (c : Course ω α) : Prop where
  capped : c.queue.running.length ≤ config.maxConcurrent.toNat
  distinct : ((c.queue.pending ++ c.queue.running.map (·.operation)).map (·.ticket)).Nodup
  issued : ∀ op ∈ c.queue.pending ++ c.queue.running.map (·.operation),
    op.ticket ≤ c.queue.lastTicket
  starts : ∀ c' op, c.Step c' → c'.books.started = c.books.started ++ [op] →
    op.ticket ∉ c.queue.running.map (·.ticket) ∧
      ∃ now, c'.queue.running = c.queue.running ++ [⟨op, now, 0⟩]
  ends : ∀ c' r ending, c.Step c' → c'.books.ended = c.books.ended ++ [(r, ending)] →
    c.queue.running.Perm (r :: c'.queue.running) ∧ r.ticket ∉ c'.queue.running.map (·.ticket)
  held : ∀ c', Relation.ReflTransGen Step c c' → ∀ r ∈ c.queue.running,
    r.tenure ∈ c'.queue.running.map (·.tenure) ↔ r.operation ∉ c'.books.ended.map (·.1.operation)
  neverAgain : ∀ c', Relation.ReflTransGen Step c c' → ∀ op ∈ c.books.started,
    op.ticket ∉ c'.queue.pending.map (·.ticket)

section Owned

variable {config : QueueConfig} (h : c.Reachable config)
include h

theorem Reachable.starts {op : Operation ω} (hstep : c.Step c')
    (hstarted : c'.books.started = c.books.started ++ [op]) :
    op.ticket ∉ c.queue.running.map (·.ticket) ∧
      ∃ now, c'.queue.running = c.queue.running ++ [⟨op, now, 0⟩] := by
  cases hstep.slotStep with
  | kept _ hsame _ =>
    rw [hsame] at hstarted
    simp at hstarted
  | given first rest now hpending _ hslots hfirst _ =>
    rw [hfirst] at hstarted
    cases List.append_cancel_left hstarted
    refine ⟨?_, now, hslots⟩
    have hnodup := h.accounted.nodup_present
    rw [hpending, List.cons_append, List.map_cons, List.nodup_cons, List.map_append,
      List.map_map] at hnodup
    exact fun hmem => hnodup.1 (List.mem_append_right _ hmem)
  | takenBack _ _ _ _ hsame _ =>
    rw [hsame] at hstarted
    simp at hstarted

theorem Reachable.ends {r : Running ω} {ending : Ending α} (hstep : c.Step c')
    (hended : c'.books.ended = c.books.ended ++ [(r, ending)]) :
    c.queue.running.Perm (r :: c'.queue.running) ∧
      r.ticket ∉ c'.queue.running.map (·.ticket) := by
  cases hstep.slotStep with
  | kept _ _ hsame =>
    rw [hsame] at hended
    simp at hended
  | given _ _ _ _ _ _ _ hsame =>
    rw [hsame] at hended
    simp at hended
  | takenBack ended ending' hholds hslots _ hlast =>
    rw [hlast] at hended
    cases List.append_cancel_left hended
    rw [hslots]
    refine ⟨h.accounted.running_perm hholds, ?_⟩
    intro hmem
    obtain ⟨other, hother, hticket⟩ := List.mem_map.1 hmem
    exact bne_iff_ne.1 (List.mem_filter.1 hother).2 hticket

theorem Reachable.held (hrun : Relation.ReflTransGen Step c c') {r : Running ω}
    (hr : r ∈ c.queue.running) :
    r.tenure ∈ c'.queue.running.map (·.tenure) ↔
      r.operation ∉ c'.books.ended.map (·.1.operation) := by
  have hstarted : r.operation ∈ c.books.started :=
    h.accounted.slots.mem_iff.2 (List.mem_append_left _ (List.mem_map_of_mem hr))
  constructor
  · intro hheld
    obtain ⟨holder, hholder, htenure⟩ := List.mem_map.1 hheld
    have hoperation : holder.operation = r.operation := congrArg Prod.fst htenure
    rw [← (h.run hrun).accounted.running_iff_notMem_ended (started_run hrun hstarted)]
    exact hoperation ▸ List.mem_map_of_mem hholder
  · exact (h.tenure_run hrun hr).resolve_right

end Owned
end Course

/--
In every state that a queue can get into, by steps in any order, its slots are owned.
-/
theorem queue_slotsOwned {config : QueueConfig} {c : Course ω α} (h : c.Reachable config) :
    c.SlotsOwned config where
  capped := h.running_length_le
  distinct := h.accounted.nodup_present
  issued _ hop := h.accounted.ticket_le_lastTicket hop
  starts _ _ hstep hstarted := h.starts hstep hstarted
  ends _ _ _ hstep hended := h.ends hstep hended
  held _ hrun _ hr := h.held hrun hr
  neverAgain _ hrun _ hop :=
    (h.run hrun).accounted.ticket_notMem_pending (Course.started_run hrun hop)

/--
Two operations with the same id run at the same time. The first attempt of one of them has failed,
and it keeps its slot until the next one.
-/
theorem queue_slotsOwned_retrying :
    let s : Submission Unit := ⟨"sync", some "job", .medium, none, none, ()⟩
    let op : Operation Unit := ⟨1, "job", "sync", .medium, 3, .ofMillis 1000, .epoch, ()⟩
    let c : Course Unit Nat := (Course.initial .initial)
      |>.submit s "" .epoch
      |>.submit s "" .epoch
      |>.hear .spawn [.wake]
      |>.drive .epoch
      |>.drive .epoch
      |>.invoke ⟨op, .epoch, 0⟩
      |>.finish ⟨op, .epoch, 1⟩ (.failed "offline") .epoch
    c.Reachable .initial ∧ c.queue.running.map (·.ticket) = [1, 2] ∧
      c.queue.inFlight.map (·.id) = ["job", "job"] ∧ c.SlotsOwned .initial := by
  intro s op c
  have hreach : c.Reachable .initial := by
    apply Course.Reachable.step _ (.finish _ _ _ _ (by decide +kernel) (by decide +kernel))
    apply Course.Reachable.step _ (.invoke _ _ (by decide +kernel) (by decide +kernel))
    apply Course.Reachable.step _ (.drive _ _ (by decide +kernel))
    apply Course.Reachable.step _ (.drive _ _ (by decide +kernel))
    apply Course.Reachable.step _ (.hear _ _ _ (List.Perm.refl _))
    exact (Course.Reachable.initial.step (.submit _ _ _ _)).step (.submit _ _ _ _)
  exact ⟨hreach, by decide +kernel, by decide +kernel, queue_slotsOwned hreach⟩

end ListKeeper
