import ListKeeper.Config.Basic
import ListKeeper.Queue.Operation

/-!
This module contains the queue: operations wait in the order of their priority, and those of the
same priority in the order they came in. A driver starts them while there are free slots. An
operation keeps its slot until it is over, also while it waits for its next attempt.

Each function here is one step that nothing else interrupts; the steps of callers, drivers and
operations may follow each other in any order.
-/

namespace ListKeeper

inductive Signal where
  | spawn
  | wake
deriving DecidableEq, Repr

/--
The drivers of a queue: how many are about to look for work, how many wait to be woken, and whether
a wake-up is kept for the next one that wants to wait.
-/
structure Drivers where
  runnable : Nat
  parked : Nat
  permit : Bool
deriving DecidableEq, Repr

namespace Drivers

def none : Drivers := ⟨0, 0, false⟩

def receive (d : Drivers) : Signal → Drivers
  | .spawn => { d with runnable := d.runnable + 1 }
  | .wake =>
    if 0 < d.parked then
      { d with runnable := d.runnable + 1, parked := d.parked - 1 }
    else
      { d with permit := true }

def park (d : Drivers) : Drivers :=
  if d.permit then
    { d with permit := false }
  else
    { d with runnable := d.runnable - 1, parked := d.parked + 1 }

def leave (d : Drivers) : Drivers :=
  { d with runnable := d.runnable - 1 }

end Drivers

inductive Move (ω : Type) where
  | start (operation : Operation ω) (rest : List (Operation ω))
  | wait
  | leave

/--
A queue of operations whose work is given by `ω` and has a result of type `α`. The results are those
delivered to the callers, by ticket.
-/
structure Queue (ω α : Type) where
  config : QueueConfig
  pending : List (Operation ω)
  running : List (Running ω)
  history : List Record
  completed : Nat
  failed : Nat
  cancelled : Nat
  processing : Bool
  lastTicket : Nat
  drivers : Drivers
  results : List (Nat × Except Error α)

namespace Queue

def create (config : QueueConfig) : Queue ω α where
  config := config
  pending := []
  running := []
  history := []
  completed := 0
  failed := 0
  cancelled := 0
  processing := false
  lastTicket := 0
  drivers := .none
  results := []

/--
Put an operation in its place: behind all that are at least as urgent.
-/
def place (op : Operation ω) : List (Operation ω) → List (Operation ω)
  | [] => [op]
  | other :: rest =>
    if other.priority.rank < op.priority.rank then
      op :: other :: rest
    else
      other :: place op rest

def keepLast (n : Nat) (rs : List α) : List α :=
  rs.drop (rs.length - n)

variable (q : Queue ω α)

def receive (signal : Signal) : Queue ω α :=
  { q with drivers := q.drivers.receive signal }

def running? (ticket : Nat) : Option (Running ω) :=
  q.running.find? fun r => r.ticket == ticket

def result? (ticket : Nat) : Option (Except Error α) :=
  q.results.lookup ticket

def record (r : Record) : Queue ω α :=
  { q with
    history := keepLast q.config.maxHistory.toNat (q.history ++ [r])
    completed := q.completed + (if r.status = .completed then 1 else 0)
    failed := q.failed + (if r.status = .failed then 1 else 0)
    cancelled := q.cancelled + (if r.status = .cancelled then 1 else 0) }

def deliver (ticket : Nat) (result : Except Error α) : Queue ω α :=
  { q with results := q.results ++ [(ticket, result)] }

def admitted (s : Submission ω) (mark : String) (now : Timestamp) : Operation ω where
  ticket := q.lastTicket + 1
  id := s.idWith mark
  name := s.name
  priority := s.priority
  maxRetries := s.maxRetries.getD q.config.maxRetries
  retryDelay := s.retryDelay.getD q.config.retryDelay
  scheduledAt := now
  work := s.work

def accept (op : Operation ω) : Signal × Queue ω α :=
  (if q.processing then .wake else .spawn,
    { q with pending := place op q.pending, processing := true, lastTicket := op.ticket })

def enqueue (s : Submission ω) (mark : String) (now : Timestamp) :
    Operation ω × List Notice × Queue ω α :=
  let op := q.admitted s mark now
  let (signal, q) := q.accept op
  (op, [.enqueued op.ref q.pending.length], q.receive signal)

def move : Move ω :=
  match q.pending with
  | op :: rest => if q.running.length < q.config.maxConcurrent.toNat then .start op rest else .wait
  | [] => if q.running.isEmpty then .leave else .wait

def drive (now : Timestamp) : Queue ω α :=
  match q.move with
  | .start op rest => { q with pending := rest, running := q.running ++ [⟨op, now, 0⟩] }
  | .wait => { q with drivers := q.drivers.park }
  | .leave => { q with processing := false, drivers := q.drivers.leave }

def beginAttempt (ticket : Nat) : Queue ω α :=
  { q with
    running := q.running.map fun r =>
      if r.ticket = ticket then { r with attempts := r.attempts + 1 } else r }

def conclude (r : Running ω) (ending : Ending α) (now : Timestamp) : Queue ω α :=
  ({ q with running := q.running.filter fun other => other.ticket != r.ticket }.deliver
    r.ticket ending.result).record (r.record ending now)

def cancel (op : Operation ω) (now : Timestamp) : Queue ω α :=
  (q.deliver op.ticket (.error op.cancellation)).record (op.cancelledRecord now)

def drain (now : Timestamp) : Queue ω α :=
  q.pending.foldl (fun q op => q.cancel op now) { q with pending := [] }

def cancelAll (now : Timestamp) : Nat × List Notice × Queue ω α :=
  let count := q.pending.length
  if 0 < count then
    (count, [.operationsCancelled count], (q.drain now).receive .wake)
  else
    (0, [], q)

def prune : Nat × Queue ω α :=
  (q.history.length, { q with history := [], completed := 0, failed := 0, cancelled := 0 })

/--
Forget the records and the counts, after cancelling all that is pending if that is wanted. The
answer tells how many operations were cancelled and how many records forgotten.
-/
def cleanup (cancelPending : Bool) (now : Timestamp) : (Nat × Nat) × List Notice × Queue ω α :=
  let (cancelled, notices, q) := if cancelPending then q.cancelAll now else (0, [], q)
  let (pruned, q) := q.prune
  ((cancelled, pruned), notices, q)

def stats : Stats where
  pending := q.pending.length
  inFlight := q.running.length
  completed := q.completed
  failed := q.failed
  cancelled := q.cancelled
  processing := q.processing

def pendingIds : List String :=
  q.pending.map (·.id)

def inFlight : List InFlight :=
  q.running.map (·.inFlight)

end Queue
end ListKeeper
