import ListKeeper.Proofs.Keeper.Recording
import ListKeeper.Simulation.Machine
import Mathlib.Algebra.Order.Group.Multiset

/-!
This module contains where the tasks of a machine are. Whatever the host does, a machine loses no
task and gets none but by running one, so a condition on the collection of all tasks is kept as long
as tasks only move.
-/

namespace ListKeeper

inductive Task.Leads (task : Task σ) : Task σ → Prop
  | here : Leads task task
  | elapsed {task' : Task σ} (h : Leads task task') : Leads task (.elapsed task')

theorem Task.Leads.ticket?_eq {task task' : Task σ} (h : task.Leads task') :
    task'.ticket? = task.ticket? := by
  induction h with
  | here => rfl
  | elapsed _ ih => exact ih

theorem Task.Leads.trans {task task' task'' : Task σ} (h : task.Leads task')
    (h' : task'.Leads task'') : task.Leads task'' := by
  induction h' with
  | here => exact h
  | elapsed _ ih => exact .elapsed ih

namespace Machine

def tasks (m : Machine σ) : Multiset (Task σ) :=
  m.current.toList + m.ready + m.timers.map (·.2) + m.waiting.map (·.2)

section Tasks

variable {m : Machine σ}

theorem tasks_continueWith (hcurrent : m.current = none) (task : Task σ) :
    (m.continueWith task).tasks = task ::ₘ m.tasks := by
  simp [tasks, continueWith, hcurrent]

theorem tasks_ready_cons {task : Task σ} {rest : List (Task σ)} (hready : m.ready = task :: rest) :
    m.tasks = task ::ₘ { m with ready := rest }.tasks := by
  simp [tasks, hready]

theorem tasks_ready (ts : List (Task σ)) :
    { m with ready := m.ready ++ ts }.tasks = ts + m.tasks := by
  simp only [tasks, ← Multiset.coe_add]
  ac_rfl

theorem tasks_withQueue (q : Queue Work Json) :
    (m.withQueue q).tasks =
      Multiset.replicate (q.drivers.runnable - m.queue.drivers.runnable) .driver + m.tasks := by
  rw [← Multiset.coe_replicate]
  exact tasks_ready _

theorem tasks_timer (moment : Nat) (task : Task σ) :
    { m with timers := m.timers ++ [(moment, task)] }.tasks = task ::ₘ m.tasks := by
  simp only [tasks, List.map_append, ← Multiset.coe_add, List.map_cons, List.map_nil,
    Multiset.coe_singleton, ← Multiset.singleton_add]
  ac_rfl

theorem tasks_waiting (ticket : Nat) (task : Task σ) :
    { m with waiting := m.waiting ++ [(ticket, task)] }.tasks = task ::ₘ m.tasks := by
  simp only [tasks, List.map_append, ← Multiset.coe_add, List.map_cons, List.map_nil,
    Multiset.coe_singleton, ← Multiset.singleton_add]
  ac_rfl

theorem lookup_eraseP {waiting : List (Nat × Task σ)} {ticket : Nat} {task : Task σ}
    (h : waiting.lookup ticket = some task) :
    ((waiting.map (·.2) : List (Task σ)) : Multiset (Task σ)) =
      task ::ₘ ((waiting.eraseP (·.1 == ticket)).map (·.2) : List (Task σ)) := by
  induction waiting with
  | nil => cases h
  | cons first rest ih =>
    obtain ⟨ticket', task'⟩ := first
    by_cases hticket : ticket = ticket'
    · subst hticket
      rw [List.lookup_cons_self] at h
      cases h
      simp
    · rw [List.lookup_cons, beq_false_of_ne hticket] at h
      have hrest := ih h
      rw [List.eraseP_cons_of_neg (by simpa using Ne.symm hticket)]
      simp only [List.map_cons, ← Multiset.cons_coe, hrest]
      exact Multiset.cons_swap _ _ _

theorem tasks_rouse (m : Machine σ) (ticket : Nat) : (m.rouse ticket).tasks = m.tasks := by
  unfold rouse
  split
  · next task htask =>
    simp only [tasks, ← Multiset.coe_add, lookup_eraseP htask, Multiset.coe_singleton,
      ← Multiset.singleton_add]
    ac_rfl
  · rfl

theorem tasks_jumpTo (m : Machine σ) (moment : Nat) : (m.jumpTo moment).tasks = m.tasks := by
  have hparted : (((m.timers.filter (·.1 == moment)).map (·.2) : List (Task σ)) :
      Multiset (Task σ)) + ((m.timers.filter (·.1 != moment)).map (·.2) : List (Task σ)) =
        (m.timers.map (·.2) : List (Task σ)) := by
    rw [Multiset.coe_add, ← List.map_append, Multiset.coe_eq_coe]
    exact (List.filter_append_perm (·.1 == moment) m.timers).map _
  simp only [jumpTo, tasks, ← Multiset.coe_add, ← hparted]
  ac_rfl

end Tasks
end Machine

structure Machine.Shifts (m m' : Machine (Overheard σ)) : Prop where
  tasks : m'.tasks = m.tasks
  queue : m'.queue = m.queue
  world : Relation.ReflTransGen World.Elsewhere m.world m'.world

/--
A host that does nothing to the state of the program but to its storage.
-/
structure Host.KeepsOut (h : Host (Overheard σ)) : Prop where
  turn : ∀ number (w : World (Overheard σ)), w.Elsewhere (h.turn number w)
  proceed : ∀ w w' : World (Overheard σ), h.proceed w = some w' → w.Elsewhere w'
  postpone : ∀ w : World (Overheard σ), w.Elsewhere (h.postpone w)
  rest : ∀ w : World (Overheard σ), w.Elsewhere (h.rest w)
  work : ∀ w w' : World (Overheard σ), h.work w = some w' → w.Elsewhere w'

theorem Host.keepsOut_plain (k : Keeper (Overheard σ)) : (Host.plain k).KeepsOut where
  turn _ w := ⟨w.storage.storage, rfl⟩
  proceed w _ h := by
    cases h
    exact ⟨w.storage.storage, rfl⟩
  postpone w := ⟨w.storage.storage, rfl⟩
  rest w := ⟨w.storage.storage, rfl⟩
  work _ _ h := by cases h

namespace Machine

variable {h : Host (Overheard σ)} {m m' m'' : Machine (Overheard σ)}

theorem Shifts.refl (m : Machine (Overheard σ)) : m.Shifts m := ⟨rfl, rfl, .refl⟩

theorem Shifts.trans (hm : m.Shifts m') (hm' : m'.Shifts m'') : m.Shifts m'' :=
  ⟨hm'.tasks.trans hm.tasks, hm'.queue.trans hm.queue, hm.world.trans hm'.world⟩

theorem Shifts.continueWith (hm : m.Shifts m') (hcurrent : m.current = none)
    (hcurrent' : m'.current = none) (task : Task (Overheard σ)) :
    (m.continueWith task).Shifts (m'.continueWith task) := by
  refine ⟨?_, hm.queue, hm.world⟩
  rw [tasks_continueWith hcurrent, tasks_continueWith hcurrent', hm.tasks]

theorem Shifts.ofWorld {w : World (Overheard σ)} (hw : m.world.Elsewhere w) :
    m.Shifts { m with world := w } :=
  ⟨rfl, rfl, .single hw⟩

theorem shifts_rouse (m : Machine (Overheard σ)) (ticket : Nat) : m.Shifts (m.rouse ticket) := by
  refine ⟨tasks_rouse m ticket, ?_, ?_⟩
  · unfold rouse
    split
    · rfl
    · rfl
  · unfold rouse
    split
    · exact .refl
    · exact .refl

theorem current_rouse (m : Machine (Overheard σ)) (ticket : Nat) :
    (m.rouse ticket).current = m.current := by
  unfold rouse
  split
  · rfl
  · rfl

theorem shifts_wake (m : Machine (Overheard σ)) : m.Shifts (m.wake h) := by
  unfold wake
  generalize h.roused m.world = roused
  induction roused generalizing m with
  | nil => exact .refl m
  | cons ticket rest ih => exact (shifts_rouse m ticket).trans (ih (m.rouse ticket))

theorem current_wake (m : Machine (Overheard σ)) : (m.wake h).current = m.current := by
  unfold wake
  generalize h.roused m.world = roused
  induction roused generalizing m with
  | nil => rfl
  | cons ticket rest ih => exact (ih (m.rouse ticket)).trans (current_rouse m ticket)

theorem shifts_jumpTo (m : Machine (Overheard σ)) (moment : Nat) : m.Shifts (m.jumpTo moment) :=
  ⟨tasks_jumpTo m moment, rfl, .refl⟩

theorem shifts_park (hcurrent : m.current = none) (ticket : Nat) (task : Task (Overheard σ)) :
    (m.continueWith task).Shifts (m.park h ticket task) := by
  have hmoved : (m.continueWith task).Shifts
      { m with waiting := m.waiting ++ [(ticket, task)] } :=
    ⟨(tasks_waiting ticket task).trans (tasks_continueWith hcurrent task).symm, rfl, .refl⟩
  exact hmoved.trans (shifts_wake _)

theorem shifts_proceed (hh : h.KeepsOut) (hcurrent : m.current = none)
    {task : Task (Overheard σ)} {ticket : Nat} (hticket : task.ticket? = some ticket) :
    ∃ task', task.Leads task' ∧ (m.continueWith task').Shifts (m.proceed h task) := by
  unfold proceed
  rw [hticket]
  split
  · next world hworld =>
    refine ⟨task, .here, ?_, rfl, .single (hh.proceed _ _ hworld)⟩
    rw [tasks_continueWith hcurrent]
    exact tasks_continueWith (m := { m with world := world }) hcurrent task
  · next _ hticket' =>
    cases hticket'
    refine ⟨.elapsed task, .elapsed .here, ?_⟩
    have hparked := shifts_park (h := h) (m := { m with world := h.postpone m.world }) hcurrent
      ticket (.elapsed task)
    refine ⟨?_, hparked.queue, .head (hh.postpone m.world) hparked.world⟩
    rw [hparked.tasks, tasks_continueWith hcurrent]
    exact tasks_continueWith (m := { m with world := h.postpone m.world }) hcurrent _
  · next hticket' => cases hticket'

theorem shifts_after (hh : h.KeepsOut) (hcurrent : m.current = none) (millis : Nat)
    {task : Task (Overheard σ)} {ticket : Nat} (hticket : task.ticket? = some ticket) :
    ∃ task', task.Leads task' ∧ (m.continueWith task').Shifts (m.after h millis task) := by
  unfold after
  split
  · exact shifts_proceed hh hcurrent hticket
  · refine ⟨.elapsed task, .elapsed .here, ?_, rfl, .refl⟩
    rw [tasks_timer, tasks_continueWith hcurrent]

theorem runFor_keeps (hh : h.KeepsOut) {p : Machine (Overheard σ) → Prop}
    (hshifts : ∀ {m m'}, m.Shifts m' → p m → p m')
    (hrun : ∀ {m : Machine (Overheard σ)} {task}, m.current = none → p (m.continueWith task) →
      p (m.runTask h task))
    (done : Machine (Overheard σ) → Bool) (deadline fuel left : Nat) (hm : p m) :
    p (m.runFor h done deadline fuel left) := by
  -- Between two tasks that run, all that happens is that tasks move from place to place.
  induction fuel generalizing m left with
  | zero => exact hm
  | succ fuel ih =>
    unfold runFor
    split
    · next task hcurrent =>
      apply ih
      apply hrun rfl
      unfold continueWith
      rw [← hcurrent]
      exact hm
    · next task rest left hcurrent hready =>
      apply ih
      have hstarted (w : World (Overheard σ))
          (hw : Relation.ReflTransGen World.Elsewhere m.world w) :
          m.Shifts ({ m with ready := rest, world := w }.continueWith task) := by
        refine ⟨?_, rfl, hw⟩
        rw [tasks_ready_cons hready]
        exact tasks_continueWith (m := { m with ready := rest, world := w }) hcurrent task
      unfold startTask
      split
      · next ticket _ =>
        exact hrun hcurrent (hshifts (hstarted _ (.single (hh.turn ticket m.world))) hm)
      · exact hrun hcurrent (hshifts (hstarted m.world .refl) hm)
    · have hrested : p ({ m with world := h.rest m.world }.wake h) :=
        hshifts ((Shifts.ofWorld (hh.rest m.world)).trans (shifts_wake _)) hm
      generalize { m with world := h.rest m.world }.wake h = m at hrested
      dsimp only
      split
      · exact hrested
      · split
        · exact ih _ hrested
        · split
          · next world hworld =>
            have hworked := Shifts.ofWorld (hh.work _ _ hworld)
            exact ih _ (hshifts (hworked.trans (shifts_wake _)) hrested)
          · split
            · exact ih _ (hshifts (shifts_jumpTo _ _) hrested)
            · exact hshifts (shifts_jumpTo _ _) hrested
          · exact hshifts (shifts_jumpTo _ _) hrested

end Machine
end ListKeeper
