import ListKeeper.App
import ListKeeper.Simulation.Service

/-!
This module contains sessions: the whole program over storage under test and in virtual time, with
what a user of it can do one after the other.
-/

namespace ListKeeper

inductive Wiring where
  | direct
  | named
  | standard
deriving DecidableEq, Repr

inductive Assembly where
  | parts
  | plain
  | app (wiring : Wiring)
deriving DecidableEq, Repr

structure Setup where
  assembly : Assembly
  config : Config
  now : Timestamp
  disk : Disk
  file : Option String

structure Session where
  machine : Machine Bench
  config : Config
  keeperConfig : KeeperConfig
  isApp : Bool
  file : Option String
  abandoned : List Nat
  subscriptions : List Subscription

namespace Setup

def openStore (setup : Setup) : Except Error Store :=
  match setup.file with
  | some path => (DataFile.open setup.disk path).map .file
  | none => .ok (.memory .empty)

def blueprint (setup : Setup) (wiring : Wiring) : Blueprint (Option Store) :=
  let standard := (Registry.standard setup.disk).map some
  match wiring with
  | .direct => ⟨setup.config, standard, some none⟩
  | .named => ⟨setup.config, standard.register "scripted" fun _ => .ok none, none⟩
  | .standard => ⟨setup.config, standard, none⟩

def session (setup : Setup) (store : Store) (own : Option Store) (keeperConfig : KeeperConfig)
    (isApp : Bool) : Session where
  machine := .create (.initial setup.now (.create setup.disk store own)) setup.config.queue
  config := setup.config
  keeperConfig := keeperConfig
  isApp := isApp
  file := setup.file
  abandoned := []
  subscriptions := []

def start (setup : Setup) : Except Error Session := do
  let store ← setup.openStore
  match setup.assembly with
  | .parts =>
    setup.config.queue.validate
    return setup.session store none setup.config.keeper false
  | .plain =>
    setup.config.queue.validate
    return setup.session store none .initial false
  | .app wiring =>
    let app ← (setup.blueprint wiring).build
    let session := setup.session store app.storage app.config.keeper true
    return { session with machine := session.machine.note [app.readiness] }

end Setup

inductive Outcome where
  | unresolved
  | abandoned
  | resolved (result : Except Error Json)

namespace Session

variable (s : Session)

def world : World Bench := s.machine.world

def snapshot : Snapshot := s.world.snapshot

def host : Host Bench := Bench.host s.keeperConfig

def keeper : Keeper Bench := s.host.keeper

def withWorld (w : World Bench) : Session :=
  { s with machine := { s.machine with world := w } }

def withBench (bench : Bench) : Session :=
  s.withWorld { s.world with storage := bench }

def run (action : Act (World Bench) α) : Except Error α × Session :=
  let (outcome, m) := s.machine.perform s.host action
  (outcome, { s with machine := m })

def call (c : Call) : Except Error Reply × Session :=
  s.run (s.keeper.perform c)

def ask (request : Request α) : Except Error α × Session :=
  s.run (s.keeper.ask request)

def askStore (request : Request α) : Except Error α × Session :=
  s.run (Bench.askCurrent request).ofStorage

def addRule (rule : Rule) : Session :=
  s.withBench { s.world.storage with rules := s.world.storage.rules ++ [rule] }

def heal : Session :=
  s.withBench { s.world.storage with rules := [] }

def disk : Disk := s.world.storage.disk

def withDisk (disk : Disk) : Session :=
  s.withBench { s.world.storage with disk := disk }

def reopen : Except Error String × Session :=
  match s.file with
  | none => (.error (.internal "no file to open"), s)
  | some path => s.run (Bench.openFile path).ofStorage

def subscribe : Nat × Session :=
  (s.subscriptions.length,
    { s with subscriptions := s.subscriptions ++ [.start s.world.board] })

def latest (i : Nat) : Option (Snapshot × Session) := do
  let sub ← s.subscriptions[i]?
  let (snapshot, sub) := sub.latest s.world.board
  return (snapshot, { s with subscriptions := s.subscriptions.set i sub })

def poll (i : Nat) : Option (Awaited × Session) := do
  let sub ← s.subscriptions[i]?
  let (awaited, sub) := sub.poll s.world.board
  return (awaited, { s with subscriptions := s.subscriptions.set i sub })

def jobCount : Nat := s.machine.queue.lastTicket

def ticketOf (job : Nat) : Nat := job + 1

def jobOf (ticket : Nat) : Nat := ticket - 1

def mark : String :=
  let job := Text.decimal s.jobCount
  s!"${job}"

def queued (abandon : Bool) (op : Operation Work) (m : Machine Bench) :
    (Nat × String) × Session :=
  ((jobOf op.ticket, op.id),
    { s with
      machine := m
      abandoned := if abandon then op.ticket :: s.abandoned else s.abandoned })

def enqueue (submission : Submission Work) (abandon : Bool) : (Nat × String) × Session :=
  let (op, m) := s.machine.enqueue submission s.mark
  s.queued abandon op m

def scheduleSync (priority : Priority) (abandon : Bool) : (Nat × String) × Session :=
  let (op, m) := s.machine.scheduleSync priority s.mark
  s.queued abandon op m

def settle : Session :=
  { s with machine := s.machine.settle s.host }

def advance (millis : Nat) : Nat × Session :=
  let s := { s with machine := s.machine.advance s.host millis }
  (s.machine.clock, s)

def release (gate : String) : Session :=
  { s with machine := s.machine.release gate }.settle

def waitIdle : (Bool × Nat) × Session :=
  let s := { s with machine := s.machine.waitIdle s.host }
  ((s.machine.isIdle, s.machine.clock), s.settle)

def outcomeOf (job : Nat) : Outcome :=
  if ticketOf job ∈ s.abandoned then
    .abandoned
  else
    match s.machine.queue.result? (ticketOf job) with
    | some result => .resolved result
    | none => .unresolved

def outcomes : List Outcome :=
  (List.range s.jobCount).map s.outcomeOf

def await (job : Nat) : (Outcome × Nat) × Session :=
  if ticketOf job ∈ s.abandoned then
    ((.abandoned, s.machine.clock), s.settle)
  else
    let s := { s with machine := s.machine.waitFor s.host (ticketOf job) }
    ((s.outcomeOf job, s.machine.clock), s.settle)

def cancelAll : Nat × Session :=
  let (count, m) := s.machine.cancelAll
  (count, { s with machine := m })

def cleanup (cancelPending : Option Bool) : (Nat × Nat) × Session :=
  let (report, m) := s.machine.cleanup (cancelPending.getD true)
  (report, { s with machine := m })

def shutDown : (Bool × Nat) × Session :=
  let (done, m) := s.machine.shutDown s.host
  ((done, m.clock), { s with machine := m }.settle)

def probe (context : String) : Except Error Nat × Session :=
  s.run do
    Act.notice (.other ⟨.debug, "probe", context, none⟩)
    Act.modify (·.observe (.reported context (.internal "probe")))
    return (← s.keeper.ask .allLists).length

def takeEvents : (List Event × List Start) × Session :=
  ((s.world.journal, s.machine.starts),
    { s with
      machine := { s.machine with world := { s.world with journal := [] }, starts := [] } })

end Session
end ListKeeper
