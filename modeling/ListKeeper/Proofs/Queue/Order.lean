import ListKeeper.Proofs.Queue.Accounting
import ListKeeper.Proofs.Sort

/-!
This module contains the order in which operations wait and start: the most urgent first, and those
of the same priority in the order they were enqueued in.
-/

namespace ListKeeper

namespace Operation

def Precedes (op other : Operation ω) : Prop :=
  other.priority.rank < op.priority.rank ∨
    other.priority.rank = op.priority.rank ∧ op.ticket < other.ticket

def atLeast (op other : Operation ω) : Bool :=
  other.priority.rank ≤ op.priority.rank

theorem Precedes.trans {a b c : Operation ω} (h : a.Precedes b) (h' : b.Precedes c) :
    a.Precedes c := by
  unfold Precedes at h h' ⊢
  omega

theorem atLeast_trans {a b c : Operation ω} (h : a.atLeast b = true) (h' : b.atLeast c = true) :
    a.atLeast c = true := by
  unfold atLeast at h h' ⊢
  rw [decide_eq_true_eq] at h h' ⊢
  exact Nat.le_trans h' h

theorem atLeast_total (a b : Operation ω) : (a.atLeast b || b.atLeast a) = true := by
  unfold atLeast
  rw [Bool.or_eq_true, decide_eq_true_eq, decide_eq_true_eq]
  exact Nat.le_total _ _

theorem precedes_iff {a b : Operation ω} :
    a.Precedes b ↔ a.atLeast b = true ∧ (b.atLeast a = true → a.ticket < b.ticket) := by
  unfold Precedes atLeast
  simp only [decide_eq_true_eq]
  omega

end Operation

def Books.waiting (b : Books ω α) : List (Operation ω) :=
  b.enqueued.filter fun op =>
    !(b.started ++ b.cancelled).any fun other => other.ticket == op.ticket

def Books.EnqueuedBefore (b : Books ω α) (op other : Operation ω) : Prop :=
  [op, other].Sublist b.enqueued

namespace Queue

theorem pairwise_place {op : Operation ω} {ops : List (Operation ω)}
    (hops : ops.Pairwise Operation.Precedes) (hlast : ∀ other ∈ ops, other.ticket < op.ticket) :
    (place op ops).Pairwise Operation.Precedes := by
  induction ops with
  | nil => exact List.pairwise_singleton _ _
  | cons first rest ih =>
    rw [List.pairwise_cons] at hops
    simp only [place]
    split
    -- All that are behind the first less urgent one are less urgent.
    · next hrank =>
      have hfirst : op.Precedes first := .inl hrank
      rw [List.pairwise_cons, List.pairwise_cons]
      refine ⟨?_, hops⟩
      intro other hother
      rcases List.mem_cons.1 hother with rfl | hmem
      · exact hfirst
      · exact hfirst.trans (hops.1 other hmem)
    -- The first one is at least as urgent, and it has come in earlier.
    · next hrank =>
      have hticket := hlast first List.mem_cons_self
      have hfirst : first.Precedes op := by
        unfold Operation.Precedes
        omega
      rw [List.pairwise_cons]
      refine ⟨?_, ih hops.2 fun other hother => hlast other (List.mem_cons_of_mem _ hother)⟩
      intro other hother
      rcases List.mem_cons.1 ((place_perm op rest).mem_iff.1 hother) with rfl | hmem
      · exact hfirst
      · exact hops.1 other hmem

end Queue

variable {q : Queue ω α} {b : Books ω α} {c c' : Course ω α}

theorem Accounted.pending_perm (h : Accounted q b) : q.pending.Perm b.waiting := by
  have hperm := h.whereabouts
  have hnodup := (hperm.map (·.ticket)).nodup_iff.1 h.distinct
  rw [List.map_append, List.nodup_append] at hnodup
  unfold Books.waiting
  -- The filter keeps all that are pending and none of the others.
  apply List.Perm.symm
  apply (hperm.filter _).trans
  rw [List.filter_append, List.filter_eq_self.2, List.filter_eq_nil_iff.2, List.append_nil]
  · intro op hop
    simp only [Bool.not_eq_true', Bool.not_eq_false, List.any_eq_true]
    exact ⟨op, hop, by simp⟩
  · intro op hop
    simp only [Bool.not_eq_true', List.any_eq_false, beq_iff_eq]
    intro other hother heq
    exact hnodup.2.2 _ (List.mem_map_of_mem hop) _ (List.mem_map_of_mem hother) heq.symm

theorem Accounted.pairwise_enqueued (h : Accounted q b) :
    b.enqueued.Pairwise fun op other => op.ticket < other.ticket :=
  List.pairwise_map.1 h.tickets

theorem Accounted.ticket_lt_of_enqueuedBefore (h : Accounted q b) {op other : Operation ω}
    (hbefore : b.EnqueuedBefore op other) : op.ticket < other.ticket :=
  List.pairwise_iff_forall_sublist.1 h.pairwise_enqueued hbefore

theorem Accounted.pending_eq_mergeSort (h : Accounted q b)
    (hpending : q.pending.Pairwise Operation.Precedes) :
    q.pending = b.waiting.mergeSort Operation.atLeast := by
  have hwaiting : b.waiting.Pairwise fun op other => op.ticket < other.ticket :=
    h.pairwise_enqueued.filter _
  -- Tickets grow, so the order of tickets is the order of enqueuing.
  apply eq_mergeSort_of_perm _ _ _ h.pending_perm hwaiting
  · exact hpending.imp Operation.precedes_iff.1
  · exact fun _ _ _ => Operation.atLeast_trans
  · exact Operation.atLeast_total
  · intro op other hlt
    exact Nat.not_lt_of_gt hlt

namespace Course

theorem pairwise_pending_step (h : Accounted c.queue c.books)
    (hpending : c.queue.pending.Pairwise Operation.Precedes) (hstep : c.Step c') :
    c'.queue.pending.Pairwise Operation.Precedes := by
  cases hstep with
  | submit s mark now =>
    apply Queue.pairwise_place hpending
    intro other hother
    have hle := h.lastTicket other (h.whereabouts.mem_iff.2 (List.mem_append_left _ hother))
    exact Nat.lt_succ_of_le hle
  | hear signal others _ => exact hpending
  | drive now _ =>
    show (c.queue.drive now).pending.Pairwise Operation.Precedes
    rcases c.queue.drive_cases now with ⟨op, rest, _, hstart, hdrive⟩ | ⟨_, hdrive⟩ |
      ⟨_, _, _, hdrive⟩
    · rw [hdrive]
      rw [hstart, List.pairwise_cons] at hpending
      exact hpending.2
    · rw [hdrive]
      exact hpending
    · rw [hdrive]
      exact hpending
  | invoke r _ _ => exact hpending
  | finish r attempt now _ _ =>
    unfold Course.finish
    split
    · exact hpending
    · exact hpending
  | cancelAll now =>
    show (c.queue.drain now).pending.Pairwise Operation.Precedes
    rw [Queue.pending_drain]
    exact .nil
  | prune => exact hpending

theorem Reachable.pairwise_pending {config : QueueConfig} (h : c.Reachable config) :
    c.queue.pending.Pairwise Operation.Precedes := by
  induction h with
  | initial => exact .nil
  | step hreach hstep ih => exact pairwise_pending_step hreach.accounted ih hstep

theorem started_step (hstep : c.Step c') :
    c'.books.started = c.books.started ∨
      ∃ op rest, c.queue.pending = op :: rest ∧ c'.books.started = c.books.started ++ [op] := by
  cases hstep with
  | submit s mark now =>
    rw [books_submit]
    exact .inl rfl
  | hear signal others _ => exact .inl rfl
  | drive now _ =>
    rw [books_drive]
    rcases c.queue.drive_cases now with ⟨op, rest, hmove, hpending, _⟩ | ⟨hmove, _⟩ | ⟨hmove, _⟩
    · rw [hmove]
      exact .inr ⟨op, rest, hpending, rfl⟩
    · rw [hmove]
      exact .inl rfl
    · rw [hmove]
      exact .inl rfl
  | invoke r _ _ =>
    rw [books_invoke]
    exact .inl rfl
  | finish r attempt now _ _ =>
    rw [books_finish]
    split
    · exact .inl rfl
    · exact .inl rfl
  | cancelAll now =>
    rw [books_cancelAll]
    exact .inl rfl
  | prune =>
    rw [books_prune]
    exact .inl rfl

theorem pending_of_started {op : Operation ω} (hstep : c.Step c')
    (hstarted : c'.books.started = c.books.started ++ [op]) :
    ∃ rest, c.queue.pending = op :: rest := by
  rcases started_step hstep with hsame | ⟨first, rest, hpending, hfirst⟩
  · rw [hsame] at hstarted
    simp at hstarted
  · rw [hfirst] at hstarted
    cases List.append_cancel_left hstarted
    exact ⟨rest, hpending⟩

end Course

/--
In every state that a queue can get into, by steps in any order, the pending operations are those
that wait, sorted by urgency, and nothing else about their order has changed since they were
enqueued. So when an operation starts, none that is pending is more urgent, and none that is as
urgent was enqueued before it.
-/
theorem queue_order {config : QueueConfig} (h : c.Reachable config) :
    c.queue.pending = c.books.waiting.mergeSort Operation.atLeast ∧
      c.queue.pending.Pairwise Operation.Precedes ∧
      ∀ c' op, c.Step c' → c'.books.started = c.books.started ++ [op] →
        op ∈ c.queue.pending ∧ ∀ other ∈ c.queue.pending,
          ¬ op.priority.rank < other.priority.rank ∧
            (other.priority = op.priority → ¬ c.books.EnqueuedBefore other op) := by
  have hpending := h.pairwise_pending
  refine ⟨h.accounted.pending_eq_mergeSort hpending, hpending, ?_⟩
  intro c' op hstep hstarted
  obtain ⟨rest, hfirst⟩ := Course.pending_of_started hstep hstarted
  rw [hfirst, List.pairwise_cons] at hpending
  rw [hfirst]
  refine ⟨List.mem_cons_self, ?_⟩
  intro other hother
  rcases List.mem_cons.1 hother with rfl | hmem
  · refine ⟨Nat.lt_irrefl _, ?_⟩
    intro _ hbefore
    exact Nat.lt_irrefl _ (h.accounted.ticket_lt_of_enqueuedBefore hbefore)
  · have hprecedes := hpending.1 other hmem
    unfold Operation.Precedes at hprecedes
    refine ⟨by omega, ?_⟩
    intro hpriority hbefore
    have hticket := h.accounted.ticket_lt_of_enqueuedBefore hbefore
    rw [hpriority] at hprecedes
    omega

/--
Of three operations that wait, the last two are the most urgent, and the one of them that was
enqueued first is about to start.
-/
theorem queue_order_threeWaiting :
    let c : Course Unit Nat := (Course.initial .initial)
      |>.submit ⟨"sync", some "a", .low, none, none, ()⟩ "" .epoch
      |>.submit ⟨"sync", some "b", .high, none, none, ()⟩ "" .epoch
      |>.submit ⟨"sync", some "c", .high, none, none, ()⟩ "" .epoch
      |>.hear .spawn [.wake, .wake]
    let op : Operation Unit := ⟨2, "b", "sync", .high, 3, .ofMillis 1000, .epoch, ()⟩
    c.Reachable .initial ∧ c.queue.pendingIds = ["b", "c", "a"] ∧
      c.queue.pending = c.books.waiting.mergeSort Operation.atLeast ∧
      (c.drive .epoch).books.started = [op] ∧
      ∀ other ∈ c.queue.pending, ¬ op.priority.rank < other.priority.rank ∧
        (other.priority = op.priority → ¬ c.books.EnqueuedBefore other op) := by
  intro c op
  have hreach : c.Reachable .initial := by
    apply Course.Reachable.step _ (.hear _ _ _ (List.Perm.refl _))
    apply Course.Reachable.step _ (.submit _ _ _ _)
    exact (Course.Reachable.initial.step (.submit _ _ _ _)).step (.submit _ _ _ _)
  have hstep : c.Step (c.drive .epoch) := .drive _ _ (by decide +kernel)
  obtain ⟨hsorted, _, hstarts⟩ := queue_order hreach
  exact ⟨hreach, by decide +kernel, hsorted, rfl, (hstarts _ op hstep rfl).2⟩

end ListKeeper
