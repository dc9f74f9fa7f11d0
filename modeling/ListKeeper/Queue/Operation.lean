import ListKeeper.Notice
import ListKeeper.Queue.Record
import ListKeeper.Time.Timestamp

/-!
This module contains operations that go through a queue: what a caller asks for, what the queue
makes of it, and what follows from an attempt to do its work.
-/

namespace ListKeeper

structure Submission (ω : Type) where
  name : String
  id : Option String
  priority : Priority
  maxRetries : Option UInt32
  retryDelay : Option Duration
  work : ω

namespace Submission

def plain (name : String) (priority : Priority) (work : ω) : Submission ω :=
  ⟨name, none, priority, none, none, work⟩

def idWith (s : Submission ω) (mark : String) : String :=
  match s.id with
  | some id => id
  | none =>
    let name := s.name
    s!"{name}_{mark}"

def refusal (s : Submission ω) : Error :=
  let name := s.name
  .internal s!"operation '{name}' was enqueued outside a Tokio runtime"

end Submission

/--
An operation in a queue. The ticket is the queue's own name for it; the ids of callers may repeat.
-/
structure Operation (ω : Type) where
  ticket : Nat
  id : String
  name : String
  priority : Priority
  maxRetries : UInt32
  retryDelay : Duration
  scheduledAt : Timestamp
  work : ω
deriving DecidableEq, Repr

namespace Operation

def ref (op : Operation ω) : OperationRef :=
  ⟨op.id, op.name, op.priority⟩

def cancelledRecord (op : Operation ω) (now : Timestamp) : Record where
  id := op.id
  name := op.name
  priority := op.priority
  status := .cancelled
  attempts := 0
  scheduledAt := op.scheduledAt
  startedAt := none
  completedAt := now
  error := none

def cancellation (op : Operation ω) : Error :=
  .cancelled op.id op.name

def loss (op : Operation ω) : Error :=
  let id := op.id
  .internal s!"operation '{id}' ended without producing a result"

end Operation

inductive Attempt (α : Type) where
  | succeeded (value : α)
  | failed (error : String)
  | crashed
deriving DecidableEq, Repr

structure Ending (α : Type) where
  status : Status
  error : Option String
  result : Except Error α

inductive Verdict (α : Type) where
  | again (failure : FailedAttempt)
  | over (notices : List Notice) (ending : Ending α)

structure Running (ω : Type) where
  operation : Operation ω
  startedAt : Timestamp
  attempts : UInt32
deriving DecidableEq, Repr

namespace Running

def ticket (r : Running ω) : Nat := r.operation.ticket

def inFlight (r : Running ω) : InFlight where
  id := r.operation.id
  name := r.operation.name
  priority := r.operation.priority
  attempts := r.attempts
  scheduledAt := r.operation.scheduledAt
  startedAt := r.startedAt

def failure (r : Running ω) (error : String) : FailedAttempt where
  toOperationRef := r.operation.ref
  attempt := r.attempts
  maxRetries := r.operation.maxRetries
  error := error

/--
What follows from the current attempt. A failed one is followed by another while there were no
more than the allowed retries.
-/
def verdict (r : Running ω) : Attempt α → Verdict α
  | .succeeded value =>
    .over (if 1 < r.attempts then [.recovered r.operation.id r.operation.name r.attempts] else [])
      ⟨.completed, none, .ok value⟩
  | .failed error =>
    if r.operation.maxRetries < r.attempts then
      .over [.exhausted (r.failure error)]
        ⟨.failed, some error, .error (.retriesExhausted r.operation.name r.attempts error)⟩
    else
      .again (r.failure error)
  | .crashed =>
    .over [.crashed r.operation.id r.operation.name]
      ⟨.failed, some "operation panicked", .error r.operation.loss⟩

def record (r : Running ω) (ending : Ending α) (now : Timestamp) : Record where
  id := r.operation.id
  name := r.operation.name
  priority := r.operation.priority
  status := ending.status
  attempts := r.attempts
  scheduledAt := r.operation.scheduledAt
  startedAt := some r.startedAt
  completedAt := now
  error := ending.error

end Running
end ListKeeper
