import ListKeeper.Queue.Basic

/-!
This module contains what each step of a queue does to its parts.
-/

namespace ListKeeper.Queue

variable (q : Queue ω α)

theorem place_perm (op : Operation ω) (ops : List (Operation ω)) :
    (place op ops).Perm (op :: ops) := by
  induction ops with
  | nil => exact List.Perm.refl _
  | cons other rest ih =>
    simp only [place]
    split
    · exact List.Perm.refl _
    · exact (ih.cons other).trans (List.Perm.swap op other rest)

section Cancel

variable (op : Operation ω) (now : Timestamp)

@[simp]
theorem pending_cancel : (q.cancel op now).pending = q.pending := rfl

@[simp]
theorem running_cancel : (q.cancel op now).running = q.running := rfl

@[simp]
theorem processing_cancel : (q.cancel op now).processing = q.processing := rfl

@[simp]
theorem lastTicket_cancel : (q.cancel op now).lastTicket = q.lastTicket := rfl

@[simp]
theorem config_cancel : (q.cancel op now).config = q.config := rfl

@[simp]
theorem drivers_cancel : (q.cancel op now).drivers = q.drivers := rfl

@[simp]
theorem results_cancel :
    (q.cancel op now).results = q.results ++ [(op.ticket, .error op.cancellation)] := rfl

theorem drain_eq {part : Queue ω α → β} (hpart : ∀ q op, part (cancel q op now) = part q) :
    part (q.drain now) = part { q with pending := [] } := by
  unfold drain
  generalize { q with pending := [] } = start
  induction q.pending generalizing start with
  | nil => rfl
  | cons op rest ih => rw [List.foldl_cons, ih, hpart]

@[simp]
theorem pending_drain : (q.drain now).pending = [] :=
  q.drain_eq now fun q op => pending_cancel q op now

@[simp]
theorem running_drain : (q.drain now).running = q.running :=
  q.drain_eq now fun q op => running_cancel q op now

@[simp]
theorem processing_drain : (q.drain now).processing = q.processing :=
  q.drain_eq now fun q op => processing_cancel q op now

@[simp]
theorem lastTicket_drain : (q.drain now).lastTicket = q.lastTicket :=
  q.drain_eq now fun q op => lastTicket_cancel q op now

@[simp]
theorem config_drain : (q.drain now).config = q.config :=
  q.drain_eq now fun q op => config_cancel q op now

@[simp]
theorem drivers_drain : (q.drain now).drivers = q.drivers :=
  q.drain_eq now fun q op => drivers_cancel q op now

theorem results_drain :
    (q.drain now).results =
      q.results ++ q.pending.map fun op => (op.ticket, .error op.cancellation) := by
  unfold drain
  have hstart : q.results = ({ q with pending := [] } : Queue ω α).results := rfl
  rw [hstart]
  generalize ({ q with pending := [] } : Queue ω α) = start
  induction q.pending generalizing start with
  | nil => simp
  | cons op rest ih => rw [List.foldl_cons, ih, results_cancel, List.append_assoc]; rfl

end Cancel

section History

theorem keepLast_append (n : Nat) (as bs : List β) :
    keepLast n (keepLast n as ++ bs) = keepLast n (as ++ bs) := by
  unfold keepLast
  rw [← List.drop_append_of_le_length (by omega), List.drop_drop]
  congr 1
  simp only [List.length_drop, List.length_append]
  omega

theorem history_drain (now : Timestamp) {records : List Record}
    (h : q.history = keepLast q.config.maxHistory.toNat records) :
    (q.drain now).history = keepLast q.config.maxHistory.toNat
      (records ++ q.pending.map (·.cancelledRecord now)) := by
  unfold drain
  have hstart : ({ q with pending := [] } : Queue ω α).history =
      keepLast q.config.maxHistory.toNat records := h
  have hconfig : q.config = ({ q with pending := [] } : Queue ω α).config := rfl
  rw [hconfig] at hstart ⊢
  generalize ({ q with pending := [] } : Queue ω α) = start at hstart ⊢
  clear h hconfig
  induction q.pending generalizing start records with
  | nil => simpa using hstart
  | cons op rest ih =>
    have hcancel : (start.cancel op now).history = keepLast start.config.maxHistory.toNat
        (records ++ [op.cancelledRecord now]) := by
      rw [← keepLast_append, ← hstart]
      rfl
    have hrest := ih _ hcancel
    rw [config_cancel, List.append_assoc] at hrest
    exact hrest

end History

theorem map_running_beginAttempt {f : Running ω → β}
    (hf : ∀ r attempts, f { r with attempts := attempts } = f r) (ticket : Nat) :
    (q.beginAttempt ticket).running.map f = q.running.map f := by
  unfold beginAttempt
  rw [List.map_map]
  apply List.map_congr_left
  intro r _
  simp only [Function.comp_apply]
  split
  · exact hf r _
  · rfl

@[simp]
theorem operations_beginAttempt (ticket : Nat) :
    (q.beginAttempt ticket).running.map (·.operation) = q.running.map (·.operation) :=
  q.map_running_beginAttempt (fun _ _ => rfl) ticket

section Move

variable {q}

theorem move_eq_start_iff {op : Operation ω} {rest : List (Operation ω)} :
    q.move = .start op rest ↔
      q.pending = op :: rest ∧ q.running.length < q.config.maxConcurrent.toNat := by
  unfold move
  split
  · next hpending =>
    rw [hpending]
    split
    · next hfree => simp [hfree]
    · next hfull => simp [hfull]
  · next hpending =>
    rw [hpending]
    split
    · simp
    · simp

theorem move_eq_wait_iff :
    q.move = .wait ↔ q.pending = [] ∧ q.running ≠ [] ∨
      q.pending ≠ [] ∧ q.config.maxConcurrent.toNat ≤ q.running.length := by
  unfold move
  split
  · next hpending =>
    rw [hpending]
    split
    · next hfree => simp [hfree]
    · next hfull => simp [Nat.not_lt.1 hfull]
  · next hpending =>
    rw [hpending]
    split
    · next hrunning => simp [List.isEmpty_iff.1 hrunning]
    · next hrunning => simpa using hrunning

theorem move_eq_leave_iff : q.move = .leave ↔ q.pending = [] ∧ q.running = [] := by
  unfold move
  split
  · next hpending =>
    rw [hpending]
    split
    · simp
    · simp
  · next hpending =>
    rw [hpending]
    split
    · next hrunning => simp [List.isEmpty_iff.1 hrunning]
    · next hrunning => simpa using hrunning

end Move

theorem drive_cases (now : Timestamp) :
    (∃ op rest, q.move = .start op rest ∧ q.pending = op :: rest ∧
      q.drive now = { q with pending := rest, running := q.running ++ [⟨op, now, 0⟩] }) ∨
    (q.move = .wait ∧ q.drive now = { q with drivers := q.drivers.park }) ∨
    (q.move = .leave ∧ q.pending = [] ∧ q.running = [] ∧
      q.drive now = { q with processing := false, drivers := q.drivers.leave }) := by
  unfold drive
  cases hmove : q.move with
  | start op rest => exact .inl ⟨op, rest, rfl, (move_eq_start_iff.1 hmove).1, rfl⟩
  | wait => exact .inr (.inl ⟨rfl, rfl⟩)
  | leave =>
    obtain ⟨hpending, hrunning⟩ := move_eq_leave_iff.1 hmove
    exact .inr (.inr ⟨rfl, hpending, hrunning, rfl⟩)

end ListKeeper.Queue
