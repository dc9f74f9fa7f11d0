import ListKeeper.Proofs.Keeper.Loading
import ListKeeper.Proofs.Simulation.Idle
import ListKeeper.Proofs.Simulation.Tasks

/-!
This module contains how a synchronisation goes that is all a queue has to do: it is tried until
storage can be read or until no attempt is left, and then the queue is idle again. Storage may let
every reading wait, and others may change it meanwhile.
-/

namespace ListKeeper

def syncResult (n : Nat) : Except Error (List Checklist) → Except Error Json
  | .ok _ => .ok .null
  | .error e => .error (.retriesExhausted "sync_lists" (.ofNat n) e.message)

namespace World

structure FailsEach (told : List (List Heard)) (failures : List Error)
    (w w' : World (Overheard σ)) : Prop extends LoadsEach told (failures.map .error) w w' where
  lists : w'.snapshot.lists = w.snapshot.lists
  place : w'.storage.place = none

/--
Between two states, all lists were loaded until that succeeded or no retry was left.
-/
structure Settles (retries : Nat) (told : List (List Heard)) (failures : List Error)
    (last : Except Error (List Checklist)) (w w' : World (Overheard σ)) : Prop where
  loads : LoadsEach told (failures.map .error ++ [last]) w w'
  shows : ShowsOutcome last w.snapshot.lists w'
  retried : failures.length ≤ retries
  conclusive : failures.length = retries ∨ ∃ lists, last = .ok lists

variable {retries : Nat} {told : List (List Heard)} {failures : List Error}
variable {last : Except Error (List Checklist)} {w w₁ w₂ : World (Overheard σ)}

theorem FailsEach.still (h : FailsEach told failures w w₁) (hstill : Hears [] w₁ w₂) :
    FailsEach told failures w w₂ :=
  ⟨h.toLoadsEach.still hstill, (congrArg (·.snapshot.lists) hstill.board).trans h.lists,
    hstill.place.trans h.place⟩

theorem FailsEach.notices (h : FailsEach told failures w w₁) (notices : List Notice) :
    FailsEach told failures w (notices.foldl World.notice w₁) := by
  refine ⟨h.toLoadsEach.notices notices, ?_, ?_⟩
  · rw [foldl_notice]
    exact h.lists
  · rw [foldl_notice]
    exact h.place

theorem Settles.still (h : Settles retries told failures last w w₁) (hstill : Hears [] w₁ w₂) :
    Settles retries told failures last w w₂ :=
  ⟨h.loads.still hstill, h.shows.still hstill, h.retried, h.conclusive⟩

theorem Settles.notices (h : Settles retries told failures last w w₁) (notices : List Notice) :
    Settles retries told failures last w (notices.foldl World.notice w₁) :=
  ⟨h.loads.notices notices, h.shows.notices notices, h.retried, h.conclusive⟩

end World

namespace Machine

/--
A machine whose queue has a driver, which is about to look for work or waits to be woken. Its other
tasks are the given ones.
-/
structure Engaged (others : Multiset (Task σ)) (pending : List (Operation Work))
    (running : List (Running Work)) (results : List (Nat × Except Error Json)) (m : Machine σ) :
    Prop where
  tasks : m.tasks = others + Multiset.replicate m.queue.drivers.runnable .driver
  drivers : m.queue.drivers.runnable + m.queue.drivers.parked = 1
  processing : m.queue.processing = true
  pending : m.queue.pending = pending
  running : m.queue.running = running
  results : m.queue.results = results

section Engaged

variable {others : Multiset (Task σ)} {pending : List (Operation Work)}
variable {running : List (Running Work)} {results : List (Nat × Except Error Json)}
variable {m : Machine σ} {task task' : Task σ}

theorem Engaged.driver_or_mem (h : Engaged others pending running results (m.continueWith task))
    (hcurrent : m.current = none) :
    task = .driver ∧ m.queue.drivers.runnable = 1 ∧ m.queue.drivers.parked = 0 ∧
        m.tasks = others ∨
      task ∈ others := by
  have htasks := h.tasks
  have hdrivers : m.queue.drivers.runnable + m.queue.drivers.parked = 1 := h.drivers
  rw [tasks_continueWith hcurrent] at htasks
  change task ::ₘ m.tasks = others + Multiset.replicate m.queue.drivers.runnable .driver at htasks
  by_cases hmem : task ∈ others
  · exact .inr hmem
  · have hdriver : task ∈ Multiset.replicate m.queue.drivers.runnable (Task.driver : Task σ) := by
      have hall : task ∈ others + Multiset.replicate m.queue.drivers.runnable .driver := by
        rw [← htasks]
        exact Multiset.mem_cons_self task _
      exact (Multiset.mem_add.1 hall).resolve_left hmem
    obtain ⟨hpos, rfl⟩ := Multiset.mem_replicate.1 hdriver
    have hone : m.queue.drivers.runnable = 1 := by omega
    refine .inl ⟨rfl, hone, by omega, ?_⟩
    rw [hone, Multiset.replicate_one, add_comm, Multiset.singleton_add] at htasks
    exact (Multiset.cons_inj_right _).1 htasks

theorem Engaged.tasks_rest (h : Engaged {task} pending running results (m.continueWith task))
    (hcurrent : m.current = none) :
    m.tasks = Multiset.replicate m.queue.drivers.runnable .driver := by
  have htasks := h.tasks
  rw [tasks_continueWith hcurrent, Multiset.singleton_add] at htasks
  exact (Multiset.cons_inj_right _).1 htasks

theorem Engaged.running?_eq {r : Running Work}
    (h : Engaged others pending [r] results (m.continueWith task)) :
    m.queue.running? r.ticket = some r := by
  have hrunning : m.queue.running = [r] := h.running
  unfold Queue.running?
  rw [hrunning]
  simp

theorem Engaged.instead (h : Engaged {task} pending running results (m.continueWith task))
    (hcurrent : m.current = none) (task' : Task σ) :
    Engaged {task'} pending running results (m.continueWith task') := by
  refine ⟨?_, h.drivers, h.processing, h.pending, h.running, h.results⟩
  rw [tasks_continueWith hcurrent, h.tasks_rest hcurrent, Multiset.singleton_add]
  rfl

theorem Engaged.shifts {others : Multiset (Task (Overheard σ))} {m m' : Machine (Overheard σ)}
    (h : Engaged others pending running results m) (hm : m.Shifts m') :
    Engaged others pending running results m' := by
  refine ⟨?_, ?_, ?_, ?_, ?_, ?_⟩
  · rw [hm.tasks, hm.queue, h.tasks]
  · rw [hm.queue, h.drivers]
  · rw [hm.queue, h.processing]
  · rw [hm.queue, h.pending]
  · rw [hm.queue, h.running]
  · rw [hm.queue, h.results]

theorem Engaged.inWorld (h : Engaged others pending running results m) (w : World σ) :
    Engaged others pending running results { m with world := w } :=
  ⟨h.tasks, h.drivers, h.processing, h.pending, h.running, h.results⟩

theorem Engaged.drive_wait (h : Engaged others pending running results (m.continueWith .driver))
    (hcurrent : m.current = none) (htasks : m.tasks = others)
    (hrunnable : m.queue.drivers.runnable = 1) (hmove : m.queue.move = .wait) :
    Engaged others pending running results m.drive := by
  have hparked : m.queue.drivers.parked = 0 := by
    have hdrivers : m.queue.drivers.runnable + m.queue.drivers.parked = 1 := h.drivers
    omega
  rw [drive_of_wait hmove]
  split
  · refine ⟨?_, h.drivers, h.processing, h.pending, h.running, h.results⟩
    rw [tasks_continueWith (m := { m with queue.drivers.permit := false }) hcurrent]
    change Task.driver ::ₘ m.tasks = others + Multiset.replicate m.queue.drivers.runnable .driver
    rw [htasks, hrunnable, Multiset.replicate_one, add_comm, Multiset.singleton_add]
  · refine ⟨?_, ?_, h.processing, h.pending, h.running, h.results⟩
    · change m.tasks = others + Multiset.replicate (m.queue.drivers.runnable - 1) .driver
      rw [htasks, hrunnable]
      exact (add_zero others).symm
    · change m.queue.drivers.runnable - 1 + (m.queue.drivers.parked + 1) = 1
      omega

theorem world_drive (m : Machine σ) : m.drive.world = m.world := by
  unfold drive
  split
  · rfl
  · split
    · rfl
    · rfl
  · rfl

theorem Engaged.drive_start {op : Operation Work}
    (h : Engaged 0 [op] [] results (m.continueWith .driver)) (hcurrent : m.current = none)
    (htasks : m.tasks = 0) (hrunnable : m.queue.drivers.runnable = 1)
    (hslots : 0 < m.queue.config.maxConcurrent.toNat) :
    Engaged {.attempt op.ticket} [] [⟨op, m.today, 0⟩] results m.drive := by
  have hpending : m.queue.pending = [op] := h.pending
  have hrunning : m.queue.running = [] := h.running
  have hmove : m.queue.move = .start op [] := by
    simp [Queue.move, hpending, hrunning, hslots]
  unfold drive Queue.drive
  simp only [hmove, hrunning]
  refine ⟨?_, h.drivers, h.processing, rfl, rfl, h.results⟩
  refine (tasks_continueWith (by exact hcurrent) .driver).trans ?_
  refine (congrArg (Task.driver ::ₘ ·) (tasks_ready (m := m) [.attempt op.ticket])).trans ?_
  change _ = {Task.attempt op.ticket} + Multiset.replicate m.queue.drivers.runnable Task.driver
  rw [hrunnable, htasks, add_zero, Multiset.replicate_one, add_comm]
  rfl

theorem receive_wake {d : Drivers} (h : d.runnable + d.parked = 1) :
    (d.receive .wake).runnable = 1 ∧ (d.receive .wake).parked = 0 := by
  unfold Drivers.receive
  dsimp only
  split
  · exact ⟨by dsimp only; omega, by dsimp only; omega⟩
  · exact ⟨by dsimp only; omega, by dsimp only; omega⟩

theorem Engaged.conclude {r : Running Work}
    (h : Engaged {task} [] [r] results (m.continueWith task)) (hcurrent : m.current = none)
    (notices : List Notice) (ending : Ending Json) :
    Engaged 0 [] [] (results ++ [(r.ticket, ending.result)])
      ((m.note notices).withQueue ((m.queue.conclude r ending m.today).receive .wake)) := by
  obtain ⟨hrunnable, hparked⟩ := receive_wake (d := m.queue.drivers) h.drivers
  refine ⟨?_, ?_, h.processing, h.pending, ?_, ?_⟩
  · refine (tasks_withQueue _).trans ?_
    change Multiset.replicate ((m.queue.drivers.receive .wake).runnable -
      m.queue.drivers.runnable) .driver + m.tasks =
        0 + Multiset.replicate (m.queue.drivers.receive .wake).runnable .driver
    have hdrivers : m.queue.drivers.runnable + m.queue.drivers.parked = 1 := h.drivers
    rw [h.tasks_rest hcurrent, hrunnable, ← Multiset.replicate_add, zero_add]
    congr 1
    omega
  · change (m.queue.drivers.receive .wake).runnable + (m.queue.drivers.receive .wake).parked = 1
    rw [hrunnable, hparked]
  · have hrunning : m.queue.running = [r] := h.running
    simp [withQueue, Queue.receive, Queue.conclude, Queue.record, Queue.deliver, hrunning]
  · have hresults : m.queue.results = results := h.results
    simp [withQueue, Queue.receive, Queue.conclude, Queue.record, Queue.deliver, hresults]

end Engaged

theorem attemptOf_eq {r : Except Error α} {r' : Except Error β} (h : failure? r = failure? r') :
    attemptOf r = attemptOf r' := by
  cases r with
  | ok a =>
    cases r' with
    | ok b => rfl
    | error e' => cases h
  | error e =>
    cases r' with
    | ok b => cases h
    | error e' =>
      cases h
      rfl

/--
The stages of a synchronisation that was scheduled in the state `w`, when the given results had been
delivered before.
-/
inductive Syncing (k : Keeper (Overheard σ)) (w : World (Overheard σ)) (op : Operation Work)
    (results : List (Nat × Except Error Json)) (m : Machine (Overheard σ)) : Prop
  | queued (hengaged : Engaged 0 [op] [] results m)
    (hslots : 0 < m.queue.config.maxConcurrent.toNat) (hfails : World.FailsEach [] [] w m.world)
  | between {task : Task (Overheard σ)} {startedAt : Timestamp} {told : List (List Heard)}
    {failures : List Error} (htask : (Task.attempt op.ticket).Leads task)
    (hengaged : Engaged {task} [] [⟨op, startedAt, .ofNat failures.length⟩] results m)
    (hleft : failures.length ≤ op.maxRetries.toNat)
    (hfails : World.FailsEach told failures w m.world)
  | reading {task : Task (Overheard σ)} {reading : Act (World (Overheard σ)) Snapshot}
    {startedAt : Timestamp} {told : List (List Heard)} {failures : List Error}
    {w₁ : World (Overheard σ)} (htask : (Task.resume op.ticket reading).Leads task)
    (hengaged : Engaged {task} [] [⟨op, startedAt, .ofNat (failures.length + 1)⟩] results m)
    (hleft : failures.length ≤ op.maxRetries.toNat) (hfails : World.FailsEach told failures w w₁)
    (hreading : ∀ {r w'}, Act.ComesTo World.Elsewhere reading m.world r w' →
      Act.ComesTo World.Elsewhere k.loadAll w₁ r w')
  | settled {told : List (List Heard)} {failures : List Error}
    {last : Except Error (List Checklist)}
    (hengaged : Engaged 0 [] []
      (results ++ [(op.ticket, syncResult (failures.length + 1) last)]) m)
    (hsettles : World.Settles op.maxRetries.toNat told failures last w m.world)
  | idle {told : List (List Heard)} {failures : List Error} {last : Except Error (List Checklist)}
    (htasks : m.tasks = 0) (hidle : m.isIdle = true)
    (hresults : m.queue.results = results ++ [(op.ticket, syncResult (failures.length + 1) last)])
    (hsettles : World.Settles op.maxRetries.toNat told failures last w m.world)

section Syncing

variable {h : Host (Overheard σ)} {w w₁ : World (Overheard σ)} {op : Operation Work}
variable {results : List (Nat × Except Error Json)} {m m' : Machine (Overheard σ)}
variable {task : Task (Overheard σ)} {startedAt : Timestamp} {told : List (List Heard)}
variable {failures : List Error}

theorem Syncing.shifts {k : Keeper (Overheard σ)} (hm : m.Shifts m')
    (hsync : Syncing k w op results m) : Syncing k w op results m' := by
  have hstill := World.hears_of_elsewhere hm.world
  cases hsync with
  | queued hengaged hslots hfails =>
    refine .queued (hengaged.shifts hm) ?_ (hfails.still hstill)
    rw [hm.queue]
    exact hslots
  | between htask hengaged hleft hfails =>
    exact .between htask (hengaged.shifts hm) hleft (hfails.still hstill)
  | reading htask hengaged hleft hfails hreading =>
    exact .reading htask (hengaged.shifts hm) hleft hfails
      fun hcomes => hreading (hcomes.others hm.world)
  | settled hengaged hsettles => exact .settled (hengaged.shifts hm) (hsettles.still hstill)
  | idle htasks hidle hresults hsettles =>
    refine .idle (hm.tasks.trans htasks) ?_ ?_ (hsettles.still hstill)
    · unfold isIdle
      rw [hm.queue]
      exact hidle
    · rw [hm.queue]
      exact hresults

theorem Syncing.judge_over {k : Keeper (Overheard σ)} {attempt : Attempt Json}
    {notices : List Notice} {ending : Ending Json} {last : Except Error (List Checklist)}
    (hengaged : Engaged {task} [] [⟨op, startedAt, .ofNat (failures.length + 1)⟩] results
      (m.continueWith task))
    (hcurrent : m.current = none)
    (hverdict : Running.verdict ⟨op, startedAt, .ofNat (failures.length + 1)⟩ attempt =
      .over notices ending)
    (hresult : ending.result = syncResult (failures.length + 1) last)
    (hsettles : World.Settles op.maxRetries.toNat told failures last w m.world) :
    Syncing k w op results
      (m.judge h ⟨op, startedAt, .ofNat (failures.length + 1)⟩ attempt) := by
  unfold judge
  simp only [hverdict]
  have hover := hengaged.conclude hcurrent notices ending
  rw [hresult] at hover
  exact .settled hover (hsettles.notices notices)

theorem Syncing.judge_again {k : Keeper (Overheard σ)} {attempt : Attempt Json}
    {failure : FailedAttempt} {e : Error} (hh : h.KeepsOut)
    (hengaged : Engaged {task} [] [⟨op, startedAt, .ofNat (failures.length + 1)⟩] results
      (m.continueWith task))
    (hcurrent : m.current = none)
    (hverdict : Running.verdict ⟨op, startedAt, .ofNat (failures.length + 1)⟩ attempt =
      .again failure)
    (hleft : failures.length < op.maxRetries.toNat)
    (hfails : World.FailsEach told (failures ++ [e]) w m.world) :
    Syncing k w op results
      (m.judge h ⟨op, startedAt, .ofNat (failures.length + 1)⟩ attempt) := by
  unfold judge
  simp only [hverdict]
  have hafter : ∃ task', (Task.attempt op.ticket).Leads task' ∧
      ((m.note [.retrying failure]).continueWith task').Shifts
        ((m.note [.retrying failure]).after h op.retryDelay.millisUp (.attempt op.ticket)) :=
    shifts_after (m := m.note [.retrying failure]) hh hcurrent _ rfl
  obtain ⟨task', htask', hshifts⟩ := hafter
  have hagain := hengaged.instead hcurrent task'
  have hlength : (failures ++ [e]).length = failures.length + 1 := List.length_append
  rw [← hlength] at hagain
  have hleft : (failures ++ [e]).length ≤ op.maxRetries.toNat := by
    rw [hlength]
    exact hleft
  exact Syncing.shifts hshifts <|
    .between htask' (hagain.inWorld _) hleft (hfails.notices [.retrying failure])

theorem Syncing.judge {k : Keeper (Overheard σ)} {outcome : Except Error (List Checklist)}
    {attempt : Attempt Json} {loaded : List Heard} (hh : h.KeepsOut) (hop : IsSync op)
    (hengaged : Engaged {task} [] [⟨op, startedAt, .ofNat (failures.length + 1)⟩] results
      (m.continueWith task))
    (hcurrent : m.current = none) (hleft : failures.length ≤ op.maxRetries.toNat)
    (hfails : World.FailsEach told failures w w₁) (hplace : m.world.storage.place = none)
    (hloads : World.LoadsEach [loaded] [outcome] w₁ m.world)
    (hshows : World.ShowsOutcome outcome w₁.snapshot.lists m.world)
    (hattempt : attempt = attemptOf outcome) :
    Syncing k w op results
      (m.judge h ⟨op, startedAt, .ofNat (failures.length + 1)⟩ attempt) := by
  rw [hfails.lists] at hshows
  have hall := hfails.toLoadsEach.trans hloads
  subst hattempt
  cases outcome with
  | ok lists =>
    exact .judge_over hengaged hcurrent rfl rfl ⟨hall, hshows, hleft, .inr ⟨lists, rfl⟩⟩
  | error e =>
    by_cases hlast : failures.length = op.maxRetries.toNat
    · have hsettles : World.Settles op.maxRetries.toNat (told ++ [loaded]) failures (.error e) w
          m.world := ⟨hall, hshows, hleft, .inl hlast⟩
      refine .judge_over hengaged hcurrent (if_pos ((hop.maxRetries_lt_iff hleft).2 hlast)) ?_
        hsettles
      simp only [syncResult, hop.name]
    · have hagain : World.FailsEach (told ++ [loaded]) (failures ++ [e]) w m.world := by
        refine ⟨?_, hshows.lists, hplace⟩
        rw [List.map_append]
        exact hall
      exact .judge_again hh hengaged hcurrent
        (if_neg (mt (hop.maxRetries_lt_iff hleft).1 hlast)) (by omega) hagain

variable {config : KeeperConfig} {g : Gateway σ}
variable {joined : {α : Type} → List (Act (World (Overheard σ)) α) →
  Act (World (Overheard σ)) (List α)}

theorem Syncing.judge_loaded {outcome : Except Error Snapshot} (hh : h.KeepsOut)
    (hjoined : Act.JoinsAllAmid World.Elsewhere joined) (hop : IsSync op)
    (hengaged : Engaged {task} [] [⟨op, startedAt, .ofNat (failures.length + 1)⟩] results
      (m.continueWith task))
    (hcurrent : m.current = none) (hleft : failures.length ≤ op.maxRetries.toNat)
    (hfails : World.FailsEach told failures w w₁)
    (hcomes : Act.ComesTo World.Elsewhere (Keeper.overheard config g joined).loadAll w₁ outcome
      m.world) :
    Syncing (.overheard config g joined) w op results
      (m.judge h ⟨op, startedAt, .ofNat (failures.length + 1)⟩ (attemptOf outcome)) := by
  obtain ⟨loaded, outcome', hsame, hplace, hloads, hshows⟩ :=
    Keeper.loadsEach_loadAll hjoined hfails.place hcomes
  exact .judge hh hop hengaged hcurrent hleft hfails hplace hloads hshows (attemptOf_eq hsame)

theorem Syncing.sync {reading : Act (World (Overheard σ)) Snapshot} (hh : h.KeepsOut)
    (hjoined : Act.JoinsAllAmid World.Elsewhere joined) (hop : IsSync op)
    (hengaged : Engaged {task} [] [⟨op, startedAt, .ofNat (failures.length + 1)⟩] results
      (m.continueWith task))
    (hcurrent : m.current = none) (hleft : failures.length ≤ op.maxRetries.toNat)
    (hfails : World.FailsEach told failures w w₁)
    (hreading : ∀ {r w'}, Act.ComesTo World.Elsewhere reading m.world r w' →
      Act.ComesTo World.Elsewhere (Keeper.overheard config g joined).loadAll w₁ r w') :
    Syncing (.overheard config g joined) w op results (m.sync h op.ticket reading) := by
  have hpoll {r w'} (hcomes : Act.ComesTo World.Elsewhere (reading.poll m.world).1
      (reading.poll m.world).2 r w') := hreading hcomes.of_poll
  unfold Machine.sync
  generalize reading.poll m.world = polled at hpoll
  obtain ⟨reading, world⟩ := polled
  have hwoken := shifts_wake (h := h) { m with world := world }
  have hcurrent' := (current_wake (h := h) { m with world := world }).trans hcurrent
  have hengaged' : Engaged {task} [] [⟨op, startedAt, .ofNat (failures.length + 1)⟩] results
      (({ m with world := world }.wake h).continueWith task) :=
    (hengaged.inWorld world).shifts (hwoken.continueWith hcurrent hcurrent' task)
  dsimp only
  generalize { m with world := world }.wake h = next at hwoken hcurrent' hengaged'
  have hfound : next.queue.running? op.ticket = some _ := hengaged'.running?_eq
  rw [hfound]
  have hparked {reading : Act (World (Overheard σ)) Snapshot}
      (hpoll : ∀ {r w'}, Act.ComesTo World.Elsewhere reading world r w' →
        Act.ComesTo World.Elsewhere (Keeper.overheard config g joined).loadAll w₁ r w') :
      Syncing (.overheard config g joined) w op results
        (next.park h op.ticket (.resume op.ticket reading)) := by
    refine Syncing.shifts (shifts_park hcurrent' _ _) ?_
    exact .reading .here (hengaged'.instead hcurrent' _) hleft hfails
      fun hcomes => hpoll (hcomes.others hwoken.world)
  cases reading with
  | done outcome =>
    have hloaded := hpoll (.done _ hwoken.world)
    cases outcome with
    | ok snapshot => exact .judge_loaded hh hjoined hop hengaged' hcurrent' hleft hfails hloaded
    | error e => exact .judge_loaded hh hjoined hop hengaged' hcurrent' hleft hfails hloaded
  | step change next' => exact hparked hpoll
  | wait ready giveUp next' => exact hparked hpoll

theorem Engaged.drive_running {others : Multiset (Task (Overheard σ))} {r : Running Work}
    (hengaged : Engaged others [] [r] results (m.continueWith .driver))
    (hcurrent : m.current = none) (htasks : m.tasks = others)
    (hrunnable : m.queue.drivers.runnable = 1) :
    Engaged others [] [r] results m.drive := by
  have hpending : m.queue.pending = [] := hengaged.pending
  have hrunning : m.queue.running = [r] := hengaged.running
  refine hengaged.drive_wait hcurrent htasks hrunnable ?_
  simp [Queue.move, hpending, hrunning]

theorem Engaged.drive_leave (hengaged : Engaged 0 [] [] results (m.continueWith .driver)) :
    m.drive.tasks = m.tasks ∧ m.drive.isIdle = true ∧ m.drive.queue.results = results := by
  have hpending : m.queue.pending = [] := hengaged.pending
  have hrunning : m.queue.running = [] := hengaged.running
  have hmove : m.queue.move = .leave := by
    simp [Queue.move, hpending, hrunning]
  unfold drive Queue.drive
  simp only [hmove]
  exact ⟨rfl, rfl, hengaged.results⟩

theorem Engaged.beginAttempt {r : Running Work}
    (hengaged : Engaged {task} [] [r] results (m.continueWith task)) :
    Engaged {task} [] [{ r with attempts := r.attempts + 1 }] results
      ({ m with queue := m.queue.beginAttempt r.ticket }.continueWith task) := by
  have hrunning : m.queue.running = [r] := hengaged.running
  refine ⟨hengaged.tasks, hengaged.drivers, hengaged.processing, hengaged.pending, ?_,
    hengaged.results⟩
  change (m.queue.beginAttempt r.ticket).running = _
  unfold Queue.beginAttempt
  rw [hrunning]
  exact congrArg ([·]) (if_pos rfl)

theorem Syncing.runTask_attempt (hh : h.KeepsOut)
    (hkeeper : h.keeper = .overheard config g joined)
    (hjoined : Act.JoinsAllAmid World.Elsewhere joined) (hop : IsSync op)
    (hengaged : Engaged {task} [] [⟨op, startedAt, .ofNat failures.length⟩] results
      (m.continueWith task))
    (hcurrent : m.current = none) (hleft : failures.length ≤ op.maxRetries.toNat)
    (hfails : World.FailsEach told failures w m.world) :
    Syncing (.overheard config g joined) w op results (m.runTask h (.attempt op.ticket)) := by
  have hbegun := hengaged.beginAttempt
  have hcount : UInt32.ofNat failures.length + 1 = UInt32.ofNat (failures.length + 1) :=
    (UInt32.ofNat_add failures.length 1).symm
  rw [hcount] at hbegun
  have hfound : (m.queue.beginAttempt op.ticket).running? op.ticket = some _ := hbegun.running?_eq
  unfold Machine.runTask Machine.beginAttempt
  simp only [hfound, hop.work, hkeeper]
  exact .sync hh hjoined hop hbegun hcurrent hleft hfails id

theorem Syncing.runTask (hh : h.KeepsOut) (hkeeper : h.keeper = .overheard config g joined)
    (hjoined : Act.JoinsAllAmid World.Elsewhere joined) (hop : IsSync op)
    (hcurrent : m.current = none)
    (hsync : Syncing (.overheard config g joined) w op results (m.continueWith task)) :
    Syncing (.overheard config g joined) w op results (m.runTask h task) := by
  have hdrive : m.drive.world = m.world := world_drive m
  -- The stage tells which tasks there are, so the one that runs is the driver or the operation's.
  cases hsync with
  | queued hengaged hslots hfails =>
    rcases hengaged.driver_or_mem hcurrent with ⟨rfl, hrunnable, -, htasks⟩ | hmem
    · have hfails : World.FailsEach [] [] w m.drive.world := hdrive ▸ hfails
      exact .between .here (hengaged.drive_start hcurrent htasks hrunnable hslots)
        (Nat.zero_le _) hfails
    · cases hmem
  | @between _ _ told failures htask hengaged hleft hfails =>
    rcases hengaged.driver_or_mem hcurrent with ⟨rfl, hrunnable, -, htasks⟩ | hmem
    · have hfails : World.FailsEach told failures w m.drive.world := hdrive ▸ hfails
      exact .between htask (hengaged.drive_running hcurrent htasks hrunnable) hleft hfails
    · cases Multiset.mem_singleton.1 hmem
      cases htask with
      | here => exact .runTask_attempt hh hkeeper hjoined hop hengaged hcurrent hleft hfails
      | elapsed htask =>
        obtain ⟨_, htask', hshifts⟩ := shifts_proceed hh hcurrent (m := m) htask.ticket?_eq
        refine Syncing.shifts hshifts ?_
        exact .between (htask.trans htask') (hengaged.instead hcurrent _) hleft hfails
  | reading htask hengaged hleft hfails hreading =>
    rcases hengaged.driver_or_mem hcurrent with ⟨rfl, hrunnable, -, htasks⟩ | hmem
    · refine .reading htask (hengaged.drive_running hcurrent htasks hrunnable) hleft hfails ?_
      exact hdrive ▸ hreading
    · cases Multiset.mem_singleton.1 hmem
      cases htask with
      | here =>
        exact .sync hh hjoined hop hengaged hcurrent hleft hfails
          fun hcomes => hreading hcomes.of_recheck
      | elapsed htask =>
        obtain ⟨_, htask', hshifts⟩ := shifts_proceed hh hcurrent (m := m) htask.ticket?_eq
        refine Syncing.shifts hshifts ?_
        exact .reading (htask.trans htask') (hengaged.instead hcurrent _) hleft hfails hreading
  | @settled told failures last hengaged hsettles =>
    rcases hengaged.driver_or_mem hcurrent with ⟨rfl, -, -, htasks⟩ | hmem
    · obtain ⟨hsame, hidle, hresults⟩ := hengaged.drive_leave
      have hsettles : World.Settles op.maxRetries.toNat told failures last w m.drive.world :=
        hdrive ▸ hsettles
      exact .idle (hsame.trans htasks) hidle hresults hsettles
    · cases hmem
  | idle htasks =>
    rw [tasks_continueWith hcurrent] at htasks
    cases Multiset.cons_ne_zero htasks

end Syncing

/--
A synchronisation that was scheduled in the state `w` is over after the given failures and one more
attempt. Its caller got the result of the last one.
-/
structure Synced (retries : Nat) (told : List (List Heard)) (failures : List Error)
    (last : Except Error (List Checklist)) (ticket : Nat) (w : World (Overheard σ))
    (m : Machine (Overheard σ)) : Prop
    extends World.Settles retries told failures last w m.world where
  result : m.queue.result? ticket = some (syncResult (failures.length + 1) last)

theorem Syncing.synced {k : Keeper (Overheard σ)} {w : World (Overheard σ)} {op : Operation Work}
    {results : List (Nat × Except Error Json)} {m : Machine (Overheard σ)}
    (hsync : Syncing k w op results m) (hidle : m.isIdle = true)
    (hfresh : results.lookup op.ticket = none) :
    ∃ told failures last, Synced op.maxRetries.toNat told failures last op.ticket w m := by
  have hengaged {others : Multiset (Task (Overheard σ))} {pending : List (Operation Work)}
      {running : List (Running Work)} {results : List (Nat × Except Error Json)}
      (h : Engaged others pending running results m) : False := by
    unfold isIdle at hidle
    rw [h.processing] at hidle
    cases hidle
  cases hsync with
  | queued h => cases hengaged h
  | between _ h => cases hengaged h
  | reading _ h => cases hengaged h
  | settled h => cases hengaged h
  | idle _ _ hresults hsettles =>
    refine ⟨_, _, _, hsettles, ?_⟩
    unfold Queue.result?
    rw [hresults, List.lookup_append, hfresh]
    simp

theorem AtRest.syncing {k : Keeper (Overheard σ)} {m : Machine (Overheard σ)} (h : m.AtRest)
    (hslots : 0 < m.queue.config.maxConcurrent.toNat) (hplace : m.world.storage.place = none)
    (priority : Priority) (mark : String) :
    Syncing k m.world (m.scheduleSync priority mark).1 m.queue.results
      (m.scheduleSync priority mark).2 := by
  rw [h.scheduleSync_eq]
  refine .queued ⟨?_, ?_, rfl, rfl, h.running, rfl⟩ hslots ?_
  · simp [tasks, h.current, h.timers, h.waiting]
  · exact congrArg (1 + ·) h.parked
  · have hnone : World.FailsEach [] [] m.world m.world := ⟨.nil m.world, rfl, hplace⟩
    exact hnone.notices _

theorem AtRest.lookup_scheduleSync {m : Machine σ} (h : m.AtRest) (priority : Priority)
    (mark : String) : m.queue.results.lookup (m.scheduleSync priority mark).1.ticket = none := by
  rw [List.lookup_eq_none_iff]
  intro p hp
  have hle := h.tickets p.1 (List.mem_map_of_mem hp)
  have hticket : (m.scheduleSync priority mark).1.ticket = m.queue.lastTicket + 1 := rfl
  rw [hticket, bne_iff_ne]
  omega

/--
When a synchronisation is all that a queue has to do, all lists are read until that succeeds once or
no retry is left, however long storage lets the readings wait, whatever it answers and whenever it
fails, and whatever others do to it meanwhile. Over storage that lets nobody wait, the queue then
becomes idle in any case.
-/
theorem scheduleSync_synced {joined : {α : Type} → List (Act (World (Overheard σ)) α) →
      Act (World (Overheard σ)) (List α)}
    (hjoined : Act.JoinsAllAmid World.Elsewhere joined) (config : KeeperConfig) (g : Gateway σ)
    (h : Host (Overheard σ)) (hkeeper : h.keeper = .overheard config g joined) (hh : h.KeepsOut)
    (m : Machine (Overheard σ)) (hrest : m.AtRest) (hplace : m.world.storage.place = none)
    (hvalid : m.queue.config.validate = .ok ())
    (hretries : m.queue.config.maxRetries.toNat + 1 < UInt32.size) (priority : Priority)
    (mark : String) (deadline : Nat) :
    let scheduled := m.scheduleSync priority mark
    let final := scheduled.2.runUntil h isIdle deadline
    (final.isIdle = true → ∃ told failures last,
      Synced m.queue.config.maxRetries.toNat told failures last scheduled.1.ticket m.world
        final) ∧
    (h = Host.plain h.keeper → h.keeper.loadAll.Prompt →
      m.clock + m.queue.config.maxRetries.toNat *
        min m.queue.config.retryDelay.millisUp longestWait < deadline →
      final.isIdle = true) := by
  intro scheduled final
  have hslots := Watch.maxConcurrent_pos hvalid
  constructor
  · intro hidle
    have hop : IsSync scheduled.1 := ⟨rfl, rfl, hretries⟩
    have hsync : Syncing (.overheard config g joined) m.world scheduled.1 m.queue.results final := by
      refine Syncing.shifts (.ofWorld (hh.turn 0 _)) ?_
      exact runFor_keeps hh Syncing.shifts (Syncing.runTask hh hkeeper hjoined hop) _ _ _ _
        (hrest.syncing hslots hplace priority mark)
    exact hsync.synced hidle (hrest.lookup_scheduleSync priority mark)
  · intro hplain hprompt hdeadline
    have hidle := hrest.isIdle_scheduleSync hprompt hslots hretries priority mark hdeadline
    rw [← hplain] at hidle
    exact hidle

/--
All lists cannot be read at first, and then the items of one of two. The third attempt succeeds.
Storage lets the reading of one list wait, or lets nobody wait.
-/
theorem scheduleSync_synced_thirdTime :
    let joined := fun {α} (ms : List (Act (World (Overheard (List Fate))) α)) =>
      Act.inPasses Roster.turnLimit ms
    let busy := Error.persistence "read" "busy"
    let milk := Item.create "i" "Milk" "a" .epoch
    let tea := Checklist.create "a" "Tea" .epoch
    let trip := Checklist.create "b" "Trip" .epoch
    let g := Gateway.holding [tea.withItems [milk], trip]
    let k := Keeper.overheard .initial (g.pausing "a") joined
    let k' := Keeper.overheard .initial g Act.inTurn
    let h := { Host.plain k with roused := fun _ => [1] }
    let m := Machine.create
      (World.initial .epoch ⟨[.refused busy, .served, .served, .refused busy], none, []⟩) .initial
    let final := (m.scheduleSync .high "x").2.runUntil h isIdle 3001
    let final' := (m.scheduleSync .high "x").2.runUntil (Host.plain k') isIdle 3001
    Act.JoinsAllAmid World.Elsewhere joined ∧ h.KeepsOut ∧ m.AtRest ∧
      m.queue.config.validate = .ok () ∧ final.isIdle = true ∧
      final.world.storage.heard = [.alone (.error busy), .alone (.ok (.lists [tea, trip])),
        .abreast [some (.error busy), some (.ok (.items []))], .alone (.ok (.lists [tea, trip])),
        .abreast [some (.ok (.items [milk])), some (.ok (.items []))]] ∧
      (∃ told failures, failures.length = 2 ∧
        Synced 3 told failures (.ok [tea.withItems [milk], trip]) 1 m.world final) ∧
      k'.loadAll.Prompt ∧ final'.isIdle = true := by
  intro joined busy milk tea trip g k k' h m final final'
  have hjoined : Act.JoinsAllAmid World.Elsewhere joined := Act.joinsAllAmid_inPasses _
  have hplain := Host.keepsOut_plain k
  have hh : h.KeepsOut :=
    ⟨hplain.turn, hplain.proceed, hplain.postpone, hplain.rest, hplain.work⟩
  have hrest : m.AtRest := atRest_create _ _
  have hidle : final.isIdle = true := by decide +kernel
  have hlists : final.world.snapshot.lists = [tea.withItems [milk], trip] := by decide +kernel
  have hprompt : k'.loadAll.Prompt :=
    Keeper.prompt_loadAll (fun _ _ => trivial) Act.Prompt.inTurn
  refine ⟨hjoined, hh, hrest, rfl, hidle, by decide +kernel, ?_, hprompt, ?_⟩
  · obtain ⟨told, failures, last, hsynced⟩ :=
      (scheduleSync_synced hjoined .initial _ h rfl hh m hrest rfl rfl (by decide) .high "x"
        3001).1 hidle
    have hlast : last = .ok [tea.withItems [milk], trip] := by
      cases last with
      | ok lists => exact congrArg Except.ok (hsynced.shows.lists.symm.trans hlists)
      | error e =>
        have herror : final.world.snapshot.error = none := by decide +kernel
        cases herror.symm.trans hsynced.shows.error
    have hlength : failures.length = 2 := by
      have hsix : final.world.snapshot.version = 6 := by decide +kernel
      have hversion : 6 = 0 + 2 * (failures.map Except.error ++ [last]).length :=
        hsix.symm.trans hsynced.loads.version
      rw [List.length_append, List.length_map, List.length_singleton] at hversion
      omega
    rw [hlast] at hsynced
    exact ⟨told, failures, hlength, hsynced⟩
  · exact (scheduleSync_synced Act.joinsAllAmid_inTurn .initial g (Host.plain k') rfl
      (Host.keepsOut_plain k') m hrest rfl rfl (by decide) .high "x" 3001).2 rfl hprompt (by decide)

end Machine
end ListKeeper
