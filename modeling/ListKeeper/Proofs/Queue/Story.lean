import ListKeeper.Proofs.Queue.Chronicle

/-!
This module contains the story of each operation that goes through a queue, as it unfolds: while it
runs, all its attempts have failed so far, and when it is over, the last one was not followed by
another.
-/

namespace ListKeeper

theorem Running.verdict_eq_again {r : Running ω} {attempt : Attempt α} {failure : FailedAttempt}
    (h : r.verdict attempt = .again failure) :
    r.attempts.toNat ≤ r.operation.maxRetries.toNat ∧
      ∃ error, attempt = .failed error ∧ failure = r.failure error := by
  cases attempt with
  | succeeded value => contradiction
  | crashed => contradiction
  | failed error =>
    simp only [verdict] at h
    split at h
    · contradiction
    · next hallowed =>
      cases h
      exact ⟨Nat.not_lt.1 hallowed, error, rfl, rfl⟩

theorem Running.lt_attempts_of_over {r : Running ω} {error : String} {notices : List Notice}
    {ending : Ending α} (h : r.verdict (.failed error) = .over notices ending) :
    r.operation.maxRetries.toNat < r.attempts.toNat := by
  simp only [verdict] at h
  split at h
  · next hspent => exact hspent
  · contradiction

def Operation.warnings (op : Operation ω) (errors : List String) : List Notice :=
  errors.mapIdx fun i error => .retrying
    { op.ref with attempt := .ofNat (i + 1), maxRetries := op.maxRetries, error := error }

def Operation.Countable (op : Operation ω) : Prop :=
  op.maxRetries.toNat + 1 < UInt32.size

structure Running.Underway (r : Running ω) (d : Dossier α) (errors : List String) : Prop where
  outcomes : d.outcomes = errors.map .failed
  allowed : errors.length ≤ r.operation.maxRetries.toNat
  invocations : d.invocations = errors.length + d.working.toNat
  attempts : r.attempts.toNat = d.invocations
  told : d.told = r.operation.warnings errors
  records : d.records = []

structure Running.Over (r : Running ω) (ending : Ending α) (d : Dossier α) (errors : List String)
    (last : Attempt α) : Prop where
  outcomes : d.outcomes = errors.map .failed ++ [last]
  allowed : errors.length ≤ r.operation.maxRetries.toNat
  invocations : d.invocations = errors.length + 1
  attempts : r.attempts.toNat = errors.length + 1
  verdict : ∃ notices, r.verdict last = .over notices ending
  told : d.told = r.operation.warnings errors ++ (r.verdict last).notices
  records : ∃ now, d.records = [r.record ending now]

namespace Running

variable {r : Running ω} {d : Dossier α} {errors : List String}

theorem underway_empty (op : Operation ω) (now : Timestamp) :
    (⟨op, now, 0⟩ : Running ω).Underway (Dossier.empty : Dossier α) [] :=
  ⟨rfl, Nat.zero_le _, rfl, rfl, rfl, rfl⟩

theorem Underway.invoke (h : r.Underway d errors) (hcountable : r.operation.Countable)
    (hworking : d.working = false) :
    { r with attempts := r.attempts + 1 }.Underway d.invoke errors := by
  have hallowed := h.allowed
  have hinvocations := h.invocations
  have hattempts := h.attempts
  unfold Operation.Countable UInt32.size at hcountable
  simp only [hworking, Bool.toNat_false] at hinvocations
  refine ⟨h.outcomes, hallowed, ?_, ?_, h.told, h.records⟩
  · show d.invocations + 1 = errors.length + 1
    omega
  · show (r.attempts + 1).toNat = d.invocations + 1
    rw [UInt32.toNat_add, hattempts]
    exact Nat.mod_eq_of_lt (by simp; omega)

theorem Underway.attempts_eq (h : r.Underway d errors) (hworking : d.working = true) :
    r.attempts.toNat = errors.length + 1 := by
  rw [h.attempts, h.invocations, hworking]
  rfl

theorem Underway.again (h : r.Underway d errors) (hworking : d.working = true)
    {attempt : Attempt α} {failure : FailedAttempt} (hverdict : r.verdict attempt = .again failure)
    (now : Timestamp) : ∃ error, r.Underway (d.finish now r attempt) (errors ++ [error]) := by
  have hattempts := h.attempts_eq hworking
  obtain ⟨hallowed, error, rfl, rfl⟩ := verdict_eq_again hverdict
  have hnumber : r.attempts = .ofNat (errors.length + 1) := by
    rw [← hattempts, UInt32.ofNat_toNat]
  refine ⟨error, ?_, ?_, ?_, ?_, ?_, ?_⟩
  · simp [Dossier.finish, h.outcomes]
  · rw [List.length_append, List.length_singleton]
    omega
  · show d.invocations = (errors ++ [error]).length + 0
    rw [List.length_append, List.length_singleton, ← h.attempts, hattempts]
  · exact h.attempts
  · show d.told ++ (r.verdict (.failed error : Attempt α)).notices = _
    rw [hverdict, h.told]
    unfold Operation.warnings
    rw [List.mapIdx_concat, ← hnumber]
    rfl
  · show d.records ++ r.recorded (.failed error : Attempt α) now = []
    unfold recorded
    rw [hverdict, h.records]
    rfl

theorem Underway.over (h : r.Underway d errors) (hworking : d.working = true)
    {attempt : Attempt α} {notices : List Notice} {ending : Ending α}
    (hverdict : r.verdict attempt = .over notices ending) (now : Timestamp) :
    r.Over ending (d.finish now r attempt) errors attempt := by
  have hattempts := h.attempts_eq hworking
  refine ⟨?_, h.allowed, ?_, hattempts, ⟨notices, hverdict⟩, ?_, now, ?_⟩
  · simp [Dossier.finish, h.outcomes]
  · show d.invocations = errors.length + 1
    rw [← h.attempts, hattempts]
  · show d.told ++ _ = _
    rw [h.told]
  · show d.records ++ r.recorded attempt now = [r.record ending now]
    unfold recorded
    rw [hverdict, h.records]
    rfl

end Running

def Queue.Fresh (q : Queue ω α) (ticket : Nat) : Prop :=
  ticket ∈ q.pending.map (·.ticket) ∨ q.lastTicket < ticket

namespace Accounted

variable {q : Queue ω α} {b : Books ω α}

theorem ticket_ne_of_ended (h : Accounted q b) {r r' : Running ω} {ending : Ending α}
    (hr : r ∈ q.running) (hended : (r', ending) ∈ b.ended) : r.ticket ≠ r'.ticket := by
  intro hticket
  have hrunning : r.operation ∈ q.running.map (·.operation) := List.mem_map_of_mem hr
  have hstarted : r.operation ∈ b.started :=
    h.slots.mem_iff.2 (List.mem_append_left _ hrunning)
  have hover : r'.operation ∈ b.ended.map (·.1.operation) := List.mem_map_of_mem hended
  have hterminal : r'.operation ∈ b.terminal := List.mem_append_left _ hover
  have hsame : r.operation = r'.operation :=
    h.eq_of_ticket (h.mem_of_started hstarted) (h.mem_of_terminal hterminal) hticket
  exact (h.running_iff_notMem_ended hstarted).1 hrunning (hsame ▸ hover)

theorem not_fresh (h : Accounted q b) {op : Operation ω} (hop : op ∈ b.started) :
    ¬ q.Fresh op.ticket := by
  rintro (hpending | hlast)
  · exact h.ticket_notMem_pending hop hpending
  · exact absurd (h.lastTicket op (h.mem_of_started hop)) (Nat.not_le.2 hlast)

theorem started_of_running (h : Accounted q b) {r : Running ω} (hr : r ∈ q.running) :
    r.operation ∈ b.started :=
  h.slots.mem_iff.2 (List.mem_append_left _ (List.mem_map_of_mem hr))

theorem started_of_ended (h : Accounted q b) {r : Running ω} {ending : Ending α}
    (hended : (r, ending) ∈ b.ended) : r.operation ∈ b.started :=
  h.slots.mem_iff.2 (List.mem_append_right _ (List.mem_map_of_mem hended))

end Accounted

namespace Chronicle

/--
The dossiers tell the story of each operation whose attempts can be counted.
-/
structure Tracked (x : Chronicle ω α) : Prop where
  working : x.course.working.Nodup
  fresh : ∀ ticket, x.queue.Fresh ticket → x.dossier ticket = .empty
  running : ∀ r ∈ x.queue.running, r.operation.Countable →
    ∃ errors, r.Underway (x.dossier r.ticket) errors
  ended : ∀ r ending, (r, ending) ∈ x.books.ended → r.operation.Countable →
    ∃ errors last, r.Over ending (x.dossier r.ticket) errors last

namespace Tracked

variable {x : Chronicle ω α}

theorem initial (config : QueueConfig) : (Chronicle.initial config : Chronicle ω α).Tracked where
  working := .nil
  fresh _ _ := rfl
  running _ hr := nomatch hr
  ended _ _ hended := nomatch hended

-- What is left of a step that concerns no operation that has started.
theorem of_frame {x' : Chronicle ω α} (h : x.Tracked) (haccounted : Accounted x.queue x.books)
    (hworking : x'.course.working = x.course.working) (hrunning : x'.queue.running = x.queue.running)
    (hended : x'.books.ended = x.books.ended)
    (hfresh : ∀ ticket, x'.queue.Fresh ticket → x.queue.Fresh ticket)
    (hdossier : ∀ ticket, x'.queue.Fresh ticket ∨ ¬ x.queue.Fresh ticket →
      x'.dossier ticket = x.dossier ticket) : x'.Tracked where
  working := hworking ▸ h.working
  fresh := by
    intro ticket hticket
    rw [hdossier ticket (.inl hticket)]
    exact h.fresh ticket (hfresh ticket hticket)
  running := by
    intro r hr
    rw [hrunning] at hr
    have hstarted := haccounted.not_fresh (haccounted.started_of_running hr)
    rw [hdossier r.ticket (.inr hstarted)]
    exact h.running r hr
  ended := by
    intro r ending hmem
    rw [hended] at hmem
    have hstarted := haccounted.not_fresh (haccounted.started_of_ended hmem)
    rw [hdossier r.ticket (.inr hstarted)]
    exact h.ended r ending hmem

theorem submit (h : x.Tracked) (haccounted : Accounted x.queue x.books) (now : Timestamp)
    (s : Submission ω) (mark : String) : (x.submit now s mark).Tracked := by
  apply h.of_frame haccounted
  · rfl
  · rfl
  · have hbooks : (x.submit now s mark).books = _ := x.course.books_submit s mark now
    rw [hbooks]
    rfl
  · intro ticket hticket
    have hlast : (x.submit now s mark).queue.lastTicket = x.queue.lastTicket + 1 := rfl
    unfold Queue.Fresh at hticket ⊢
    rcases hticket with hpending | hnew
    · have hperm := (Queue.place_perm (x.queue.admitted s mark now) x.queue.pending).map
        (·.ticket)
      rcases List.mem_cons.1 (hperm.mem_iff.1 hpending) with rfl | hold
      · exact .inr (Nat.lt_succ_self _)
      · exact .inl hold
    · right
      omega
  · intro ticket _
    exact x.dossier_submit ticket now s mark

theorem hear (h : x.Tracked) (haccounted : Accounted x.queue x.books) (signal : Signal)
    (others : List Signal) : (x.silently (x.course.hear signal others)).Tracked :=
  h.of_frame haccounted rfl rfl rfl (fun _ h => h) (fun _ _ => rfl)

theorem drive (h : x.Tracked) (haccounted : Accounted x.queue x.books) (now : Timestamp) :
    (x.silently (x.course.drive now)).Tracked := by
  have hbooks : (x.silently (x.course.drive now)).books = _ := x.course.books_drive now
  have hqueue : (x.silently (x.course.drive now)).queue = x.queue.drive now := rfl
  have hended : (x.silently (x.course.drive now)).books.ended = x.books.ended := by
    rw [hbooks]
    cases x.course.queue.move with
    | start op rest => rfl
    | wait => rfl
    | leave => rfl
  have hdossier (ticket : Nat) := x.dossier_drive ticket now
  -- A driver that starts nothing concerns no operation.
  have hkept (hrunning : (x.queue.drive now).running = x.queue.running)
      (hfresh : ∀ ticket, (x.queue.drive now).Fresh ticket → x.queue.Fresh ticket) :
      (x.silently (x.course.drive now)).Tracked :=
    h.of_frame haccounted rfl hrunning hended hfresh fun ticket _ => hdossier ticket
  rcases x.queue.drive_cases now with ⟨op, rest, _, hpending, hdrive⟩ | ⟨_, hdrive⟩ |
    ⟨_, _, _, hdrive⟩
  · rw [hdrive] at hqueue
    refine ⟨h.working, ?_, ?_, ?_⟩
    · intro ticket hticket
      rw [hqueue] at hticket
      rw [hdossier]
      apply h.fresh
      rcases hticket with hrest | hlast
      · left
        rw [hpending]
        exact List.mem_cons_of_mem _ hrest
      · exact .inr hlast
    · intro r hr hcountable
      rw [hqueue] at hr
      rw [hdossier]
      rcases List.mem_append.1 hr with hold | hnew
      · exact h.running r hold hcountable
      · -- The operation that starts was fresh, so nothing has been told about it yet.
        rw [List.mem_singleton.1 hnew]
        have hfresh : x.queue.Fresh op.ticket := by
          left
          rw [hpending]
          exact List.mem_cons_self
        refine ⟨[], ?_⟩
        show Running.Underway _ (x.dossier op.ticket) []
        rw [h.fresh op.ticket hfresh]
        exact Running.underway_empty op now
    · intro r ending hmem
      rw [hended] at hmem
      rw [hdossier]
      exact h.ended r ending hmem
  · apply hkept
    · rw [hdrive]
    · rw [hdrive]
      exact fun _ hticket => hticket
  · apply hkept
    · rw [hdrive]
    · rw [hdrive]
      exact fun _ hticket => hticket

theorem invoke (h : x.Tracked) (haccounted : Accounted x.queue x.books) {r : Running ω}
    (hr : r ∈ x.queue.running) (hidle : r.ticket ∉ x.course.working) :
    (x.silently (x.course.invoke r)).Tracked := by
  have hbooks : (x.silently (x.course.invoke r)).books = _ := x.course.books_invoke r
  have hdossier (ticket : Nat) := x.dossier_invoke ticket r
  have hstarted := haccounted.not_fresh (haccounted.started_of_running hr)
  refine ⟨List.nodup_cons.2 ⟨hidle, h.working⟩, ?_, ?_, ?_⟩
  · intro ticket hticket
    have hfresh : x.queue.Fresh ticket := hticket
    have hne : r.ticket ≠ ticket := by
      rintro rfl
      exact hstarted hfresh
    rw [hdossier, if_neg hne]
    exact h.fresh ticket hfresh
  · intro r' hr' hcountable
    obtain ⟨r₀, hr₀, rfl⟩ := List.mem_map.1 hr'
    split at hcountable
    · next hticket =>
      -- No two running operations have the same ticket.
      have hsame : r₀ = r := List.inj_on_of_nodup_map haccounted.nodup_running hr₀ hr hticket
      subst hsame
      obtain ⟨errors, hunderway⟩ := h.running r₀ hr hcountable
      rw [if_pos rfl, hdossier]
      refine ⟨errors, ?_⟩
      show Running.Underway _ (if r₀.ticket = r₀.ticket then _ else _) errors
      rw [if_pos rfl]
      apply hunderway.invoke hcountable
      exact decide_eq_false hidle
    · next hticket =>
      rw [if_neg hticket, hdossier, if_neg (Ne.symm hticket)]
      exact h.running r₀ hr₀ hcountable
  · intro r' ending hmem
    rw [hbooks] at hmem
    have hended : (r', ending) ∈ x.books.ended := hmem
    rw [hdossier, if_neg (haccounted.ticket_ne_of_ended hr hended)]
    exact h.ended r' ending hended

theorem finish (h : x.Tracked) (haccounted : Accounted x.queue x.books) {r : Running ω}
    (hr : r ∈ x.queue.running) (hbusy : r.ticket ∈ x.course.working) (attempt : Attempt α)
    (now : Timestamp) : (x.finish now r attempt).Tracked := by
  have hbooks : (x.finish now r attempt).books = _ := x.course.books_finish now r attempt
  have hdossier (ticket : Nat) := x.dossier_finish ticket h.working now r attempt
  have hqueue : (x.finish now r attempt).queue = (x.course.finish r attempt now).queue := rfl
  have hworking : (x.dossier r.ticket).working = true := decide_eq_true hbusy
  have hstarted := haccounted.not_fresh (haccounted.started_of_running hr)
  -- The attempt is told only to the dossier of its own operation.
  have hother {r' : Running ω} (hr' : r' ∈ x.queue.running) (hne : r.ticket ≠ r'.ticket)
      (hcountable : r'.operation.Countable) :
      ∃ errors, r'.Underway ((x.finish now r attempt).dossier r'.ticket) errors := by
    rw [hdossier, if_neg hne]
    exact h.running r' hr' hcountable
  have hended {r' : Running ω} {ending : Ending α} (hmem : (r', ending) ∈ x.books.ended)
      (hcountable : r'.operation.Countable) : ∃ errors last,
        r'.Over ending ((x.finish now r attempt).dossier r'.ticket) errors last := by
    rw [hdossier, if_neg (haccounted.ticket_ne_of_ended hr hmem)]
    exact h.ended r' ending hmem hcountable
  have hfresh {ticket : Nat} (hticket : x.queue.Fresh ticket) :
      (x.finish now r attempt).dossier ticket = .empty := by
    have hne : r.ticket ≠ ticket := by
      rintro rfl
      exact hstarted hticket
    rw [hdossier, if_neg hne]
    exact h.fresh ticket hticket
  have herased : (x.finish now r attempt).course.working.Nodup := by
    rw [(x.finish_parts now r attempt).1]
    exact h.working.erase _
  unfold Course.finish at hqueue
  rcases hverdict : r.verdict attempt with failure | ⟨notices, ending⟩
  · -- The operation keeps its slot and waits for its next attempt.
    simp only [hverdict] at hbooks hqueue
    refine ⟨herased, ?_, ?_, ?_⟩
    · intro ticket hticket
      rw [hqueue] at hticket
      exact hfresh hticket
    · intro r' hr' hcountable
      rw [hqueue] at hr'
      by_cases hticket : r.ticket = r'.ticket
      · have hsame : r = r' := List.inj_on_of_nodup_map haccounted.nodup_running hr hr' hticket
        subst hsame
        obtain ⟨errors, hunderway⟩ := h.running r hr hcountable
        obtain ⟨error, hagain⟩ := hunderway.again hworking hverdict now
        rw [hdossier, if_pos rfl]
        exact ⟨_, hagain⟩
      · exact hother hr' hticket hcountable
    · intro r' ending hmem hcountable
      rw [hbooks] at hmem
      exact hended hmem hcountable
  · -- The operation is over and leaves its slot.
    simp only [hverdict] at hbooks hqueue
    refine ⟨herased, ?_, ?_, ?_⟩
    · intro ticket hticket
      rw [hqueue] at hticket
      exact hfresh hticket
    · intro r' hr' hcountable
      rw [hqueue] at hr'
      obtain ⟨hold, hne⟩ := List.mem_filter.1 hr'
      exact hother hold (Ne.symm (bne_iff_ne.1 hne)) hcountable
    · intro r' ending' hmem hcountable
      rw [hbooks] at hmem
      rcases List.mem_append.1 hmem with hold | hnew
      · exact hended hold hcountable
      · cases List.mem_singleton.1 hnew
        obtain ⟨errors, hunderway⟩ := h.running r hr hcountable
        rw [hdossier, if_pos rfl]
        exact ⟨errors, attempt, hunderway.over hworking hverdict now⟩

theorem cancelAll (h : x.Tracked) (haccounted : Accounted x.queue x.books) (now : Timestamp) :
    (x.cancelAll now).Tracked := by
  have hqueue : (x.cancelAll now).queue = x.queue.drain now := rfl
  have hfresh (ticket : Nat) (hticket : (x.cancelAll now).queue.Fresh ticket) :
      x.queue.lastTicket < ticket := by
    rw [hqueue] at hticket
    unfold Queue.Fresh at hticket
    rw [Queue.pending_drain, Queue.lastTicket_drain] at hticket
    exact hticket.resolve_left List.not_mem_nil
  apply h.of_frame haccounted
  · rfl
  · rw [hqueue, Queue.running_drain]
  · have hbooks : (x.cancelAll now).books = _ := x.course.books_cancelAll now
    rw [hbooks]
    rfl
  · intro ticket hticket
    exact .inr (hfresh ticket hticket)
  · intro ticket hticket
    apply dossier_cancelAll
    intro hpending
    rcases hticket with hticket | hticket
    · obtain ⟨op, hop, rfl⟩ := List.mem_map.1 hpending
      have hle := haccounted.ticket_le_lastTicket (List.mem_append_left _ hop)
      exact absurd hle (Nat.not_le.2 (hfresh _ hticket))
    · exact hticket (.inl hpending)

theorem prune (h : x.Tracked) (haccounted : Accounted x.queue x.books) : x.prune.Tracked := by
  apply h.of_frame haccounted
  · rfl
  · rfl
  · have hbooks : x.prune.books = _ := x.course.books_prune
    rw [hbooks]
    rfl
  · exact fun _ hticket => hticket
  · intro ticket _
    exact x.dossier_prune ticket

theorem step {x' : Chronicle ω α} (h : x.Tracked) (haccounted : Accounted x.queue x.books)
    (hstep : x.Step x') : x'.Tracked := by
  cases hstep with
  | submit s mark now => exact h.submit haccounted now s mark
  | hear signal others _ => exact h.hear haccounted signal others
  | drive now _ => exact h.drive haccounted now
  | invoke r hr hidle => exact h.invoke haccounted hr hidle
  | finish r attempt now hr hbusy => exact h.finish haccounted hr hbusy attempt now
  | cancelAll now => exact h.cancelAll haccounted now
  | prune => exact h.prune haccounted

end Tracked

theorem Reachable.tracked {config : QueueConfig} {x : Chronicle ω α} (h : x.Reachable config) :
    x.Tracked := by
  induction h with
  | initial => exact .initial config
  | step h hstep ih => exact ih.step h.course.accounted hstep

end Chronicle
end ListKeeper
