import ListKeeper.Keeper.Call
import ListKeeper.Queue.Basic

/-!
This module contains a machine that runs the work of a queue in virtual time. Tasks run in the order
in which they became ready, each until it has to wait. Time passes only when no task is ready and
storage has nothing to do, and then jumps to the next moment at which a task is ready.
-/

namespace ListKeeper

structure Trial where
  gate : Option String
  millis : Option Nat
  ending : Attempt Json

inductive Work where
  | trials (trials : List Trial)
  | sync

namespace Work

def trial (trials : List Trial) (attempt : Nat) : Trial :=
  (trials[attempt - 1]?.or trials.getLast?).getD ⟨none, none, .succeeded .null⟩

end Work

/--
What a machine runs on: the keeper, and storage that may let tasks wait and has work of its own.
-/
structure Host (σ : Type) where
  keeper : Keeper σ
  turn : Nat → World σ → World σ
  proceed : World σ → Option (World σ)
  postpone : World σ → World σ
  roused : World σ → List Nat
  rest : World σ → World σ
  work : World σ → Option (World σ)

def Host.plain (k : Keeper σ) : Host σ where
  keeper := k
  turn := fun _ w => w
  proceed := some
  postpone := id
  roused := fun _ => []
  rest := id
  work := fun _ => none

inductive Task (σ : Type) where
  | driver
  | attempt (ticket : Nat)
  | passGate (ticket : Nat)
  | finish (ticket : Nat)
  | resume (ticket : Nat) (reading : Act (World σ) Snapshot)
  | elapsed (task : Task σ)

def Task.ticket? : Task σ → Option Nat
  | .driver => none
  | .attempt ticket | .passGate ticket | .finish ticket | .resume ticket _ => some ticket
  | .elapsed task => task.ticket?

structure Start where
  ticket : Nat
  attempt : UInt32
  millis : Nat
deriving DecidableEq, Repr

/--
The state of the program together with a queue, the task that goes on in the current turn, tasks
that are ready, tasks that wait for a moment, for a gate or to be roused, and the starts of
attempts.
-/
structure Machine (σ : Type) where
  world : World σ
  queue : Queue Work Json
  clock : Nat
  current : Option (Task σ)
  ready : List (Task σ)
  timers : List (Nat × Task σ)
  gated : List (String × Task σ)
  waiting : List (Nat × Task σ)
  opened : List String
  starts : List Start

namespace Machine

def create (world : World σ) (config : QueueConfig) : Machine σ where
  world := world
  queue := .create config
  clock := 0
  current := none
  ready := []
  timers := []
  gated := []
  waiting := []
  opened := []
  starts := []

variable (m : Machine σ)

def today : Timestamp := m.world.board.now

def note (notices : List Notice) : Machine σ :=
  { m with world := notices.foldl World.notice m.world }

def withQueue (q : Queue Work Json) : Machine σ :=
  { m with
    queue := q
    ready := m.ready ++
      List.replicate (q.drivers.runnable - m.queue.drivers.runnable) .driver }

def continueWith (task : Task σ) : Machine σ :=
  { m with current := some task }

def rouse (ticket : Nat) : Machine σ :=
  match m.waiting.lookup ticket with
  | some task =>
    { m with ready := m.ready ++ [task], waiting := m.waiting.eraseP (·.1 == ticket) }
  | none => m

def wake (h : Host σ) : Machine σ :=
  (h.roused m.world).foldl rouse m

def park (h : Host σ) (ticket : Nat) (task : Task σ) : Machine σ :=
  { m with waiting := m.waiting ++ [(ticket, task)] }.wake h

def proceed (h : Host σ) (task : Task σ) : Machine σ :=
  match h.proceed m.world, task.ticket? with
  | some world, _ => { m with world := world }.continueWith task
  | none, some ticket => { m with world := h.postpone m.world }.park h ticket (.elapsed task)
  | none, none => m.continueWith task

def longestWait : Nat := 30 * 365 * 24 * 60 * 60 * 1000

def momentAfter (millis : Nat) : Nat :=
  m.clock + min millis longestWait

def after (h : Host σ) (millis : Nat) (task : Task σ) : Machine σ :=
  if millis = 0 then
    m.proceed h task
  else
    { m with timers := m.timers ++ [(m.momentAfter millis, .elapsed task)] }

def behind (gate : Option String) (task : Task σ) : Machine σ :=
  match gate with
  | some gate =>
    if gate ∈ m.opened then
      m.continueWith task
    else
      { m with gated := m.gated ++ [(gate, task)] }
  | none => m.continueWith task

def drive : Machine σ :=
  let next := { m with queue := m.queue.drive m.today }
  match m.queue.move with
  | .start op _ =>
    let attempt : Task σ := .attempt op.ticket
    { next with ready := next.ready ++ [attempt] }.continueWith .driver
  | .wait => if m.queue.drivers.permit then next.continueWith .driver else next
  | .leave => next

def judge (h : Host σ) (r : Running Work) (attempt : Attempt Json) : Machine σ :=
  match r.verdict attempt with
  | .again failure =>
    (m.note [.retrying failure]).after h r.operation.retryDelay.millisUp (.attempt r.ticket)
  | .over notices ending =>
    (m.note notices).withQueue ((m.queue.conclude r ending m.today).receive .wake)

def sync (h : Host σ) (ticket : Nat) (reading : Act (World σ) Snapshot) : Machine σ :=
  let (reading, world) := reading.poll m.world
  let next := { m with world := world }.wake h
  match reading, next.queue.running? ticket with
  | .done (.ok _), some r => next.judge h r (.succeeded .null)
  | .done (.error e), some r => next.judge h r (.failed e.message)
  | .done _, none => next
  | reading, _ => next.park h ticket (.resume ticket reading)

def beginAttempt (h : Host σ) (ticket : Nat) : Machine σ :=
  let next := { m with queue := m.queue.beginAttempt ticket }
  match next.queue.running? ticket with
  | none => next
  | some r =>
    match r.operation.work with
    | .sync => next.sync h ticket h.keeper.loadAll
    | .trials trials =>
      let start : Start := ⟨ticket, r.attempts, next.clock⟩
      { next with starts := next.starts ++ [start] }.behind
        (Work.trial trials r.attempts.toNat).gate (.passGate ticket)

def currentTrial? (ticket : Nat) : Option (Running Work × Trial) :=
  match m.queue.running? ticket with
  | some r =>
    match r.operation.work with
    | .trials trials => some (r, Work.trial trials r.attempts.toNat)
    | .sync => none
  | none => none

def runTask (h : Host σ) : Task σ → Machine σ
  | .driver => m.drive
  | .attempt ticket => m.beginAttempt h ticket
  | .passGate ticket =>
    match m.currentTrial? ticket with
    | some (_, trial) =>
      match trial.millis with
      | some millis => m.after h millis (.finish ticket)
      | none => m.continueWith (.finish ticket)
    | none => m
  | .finish ticket =>
    match m.currentTrial? ticket with
    | some (r, trial) => m.judge h r trial.ending
    | none => m
  | .resume ticket reading => m.sync h ticket reading.recheck
  | .elapsed task => m.proceed h task

def startTask (h : Host σ) (task : Task σ) : Machine σ :=
  match task.ticket? with
  | some ticket => { m with world := h.turn ticket m.world }.runTask h task
  | none => m.runTask h task

def nextMoment : Option Nat :=
  (m.timers.map (·.1)).min?

def jumpTo (moment : Nat) : Machine σ :=
  { m with
    clock := moment
    ready := m.ready ++ (m.timers.filter (·.1 == moment)).map (·.2)
    timers := m.timers.filter (·.1 != moment) }

def share : Nat := 61

/--
Run tasks, let storage work and let time pass until `done` holds, or until the deadline. What is due
at the deadline is then ready but has not run. Whether `done` holds is asked when nothing is ready
or when `left` more tasks have run, and then again after every `share` tasks. The steps are bounded
by `fuel`.
-/
def runFor (h : Host σ) (done : Machine σ → Bool) (deadline : Nat) :
    (fuel left : Nat) → Machine σ → Machine σ
  | 0, _, m => m
  | fuel + 1, left, m =>
    match m.current, m.ready, left with
    | some task, _, _ =>
      runFor h done deadline fuel left ({ m with current := none }.runTask h task)
    | none, task :: rest, left + 1 =>
      runFor h done deadline fuel left ({ m with ready := rest }.startTask h task)
    | none, _, _ =>
      let m := { m with world := h.rest m.world }.wake h
      if done m then
        m
      else if !m.ready.isEmpty then
        runFor h done deadline fuel share m
      else
        match h.work m.world, m.nextMoment with
        | some world, _ => runFor h done deadline fuel share ({ m with world := world }.wake h)
        | none, some moment =>
          if moment < deadline then
            runFor h done deadline fuel share (m.jumpTo moment)
          else
            m.jumpTo deadline
        | none, none => m.jumpTo deadline

def pauses : Nat := 1000000

/--
The most steps that an operation can take: six for each attempt, sixteen more to wait in it and
after it, four for each time it waits for storage, and some for the drivers.
-/
def stepsOf (op : Operation Work) : Nat :=
  (4 * pauses + 22) * (op.maxRetries.toNat + 1) + 16

def stepsOfAll : List (Operation Work) → Nat
  | [] => 0
  | op :: rest => stepsOf op + stepsOfAll rest

def fuel : Nat :=
  stepsOfAll m.queue.pending + stepsOfAll (m.queue.running.map (·.operation)) +
    6 * m.queue.drivers.runnable + 2 * (m.ready.length + m.timers.length) + 4 * pauses + 16

def runUntil (h : Host σ) (done : Machine σ → Bool) (deadline : Nat) : Machine σ :=
  let m := m.runFor h done deadline m.fuel share
  { m with world := h.turn 0 m.world }

def settle (h : Host σ) : Machine σ :=
  m.runUntil h (fun m => m.ready.isEmpty && (h.work m.world).isNone) m.clock

def perform (h : Host σ) : Act (World σ) α → Machine σ → Except Error α × Machine σ
  | .done outcome, m => (outcome, m.wake h)
  | .step change next, m => perform h (next m.world) { m with world := change m.world }
  | .wait ready _ next, m =>
    perform h next ((m.wake h).runUntil h (fun m => ready m.world) m.clock)

def advance (h : Host σ) (millis : Nat) : Machine σ :=
  (m.runUntil h (fun _ => false) (m.momentAfter millis)).settle h

def patience : Nat := 3600000

def isIdle : Bool := !m.queue.processing

def waitIdle (h : Host σ) : Machine σ :=
  m.runUntil h isIdle (m.clock + patience)

def waitFor (h : Host σ) (ticket : Nat) : Machine σ :=
  m.runUntil h (fun m => (m.queue.result? ticket).isSome) (m.clock + patience)

def release (gate : String) : Machine σ :=
  { m with
    opened := gate :: m.opened
    ready := m.ready ++ (m.gated.filter (·.1 == gate)).map (·.2)
    gated := m.gated.filter (·.1 != gate) }

def enqueue (s : Submission Work) (mark : String) : Operation Work × Machine σ :=
  let (op, notices, q) := m.queue.enqueue s mark m.today
  (op, (m.note notices).withQueue q)

def scheduleSync (priority : Priority) (mark : String) : Operation Work × Machine σ :=
  (m.note [.syncScheduled priority]).enqueue (.plain "sync_lists" priority .sync) mark

def cancelAll : Nat × Machine σ :=
  let (count, notices, q) := m.queue.cancelAll m.today
  (count, (m.note notices).withQueue q)

def cleanup (cancelPending : Bool) : (Nat × Nat) × Machine σ :=
  let (report, notices, q) := m.queue.cleanup cancelPending m.today
  (report, (m.note notices).withQueue q)

def shutDown (h : Host σ) : Bool × Machine σ :=
  let (cancelled, next) := m.cancelAll
  let next := next.waitIdle h
  if next.isIdle then (true, next.note [.shutDown cancelled]) else (false, next)

end Machine
end ListKeeper
