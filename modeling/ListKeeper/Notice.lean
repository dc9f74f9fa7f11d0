import ListKeeper.Board
import ListKeeper.Error
import ListKeeper.Queue.Priority

/-!
This module contains what the program writes to the log while it runs.
-/

namespace ListKeeper

inductive Level where
  | debug
  | info
  | warning
  | error
deriving DecidableEq, Repr

namespace Level

def all : List Level :=
  [.debug, .info, .warning, .error]

def name : Level → String
  | .debug => "debug"
  | .info => "info"
  | .warning => "warning"
  | .error => "error"

def ofName? (s : String) : Option Level :=
  all.find? fun level => level.name == s

def eventName : Level → String
  | .debug => "DEBUG"
  | .info => "INFO"
  | .warning => "WARN"
  | .error => "ERROR"

def rank : Level → Nat
  | .debug => 0
  | .info => 1
  | .warning => 2
  | .error => 3

def atOrAbove (level : Level) : List Level :=
  all.filter fun other => level.rank ≤ other.rank

end Level

structure Entry where
  level : Level
  message : String
  context : String
  data : Option Json

structure OperationRef where
  id : String
  name : String
  priority : Priority
deriving DecidableEq, Repr

structure FailedAttempt extends OperationRef where
  attempt : UInt32
  maxRetries : UInt32
  error : String
deriving DecidableEq, Repr

inductive Notice where
  | compensating (operation : String) (error : Error)
  | compensationFailed (operation : String) (error compensation : Error)
  | listCreated (id : String) (items : Nat)
  | allCleared (lists : Nat)
  | listsLoaded (lists version : Nat)
  | itemsAdded (listId : String) (items : Nat)
  | enqueued (operation : OperationRef) (pending : Nat)
  | retrying (attempt : FailedAttempt)
  | exhausted (attempt : FailedAttempt)
  | recovered (id name : String) (attempts : UInt32)
  | crashed (id name : String)
  | operationsCancelled (count : Nat)
  | ready (backend : String) (maxConcurrent : UInt64)
  | syncScheduled (priority : Priority)
  | shutDown (cancelled : Nat)
  | other (entry : Entry)

namespace Notice

def attemptData (a : FailedAttempt) : Json :=
  .obj [
    ("attempt", .nat a.attempt.toNat),
    ("error", .str a.error),
    ("id", .str a.id),
    ("max_retries", .nat a.maxRetries.toNat),
    ("name", .str a.name),
    ("priority", a.priority.toJson)]

def entry : Notice → Entry
  | .compensating operation e =>
    ⟨.warning, "Forward action failed, compensating", "CompensatingTransactionRunner",
      some (.obj [
        ("error", .str e.message),
        ("kind", .str e.kind),
        ("operation", .str operation),
        ("retryable", .bool e.retryable)])⟩
  | .compensationFailed operation e c =>
    ⟨.error, "Compensating action failed", "CompensatingTransactionRunner",
      some (.obj [
        ("compensation_error", .str c.message),
        ("operation", .str operation),
        ("original_error", .str e.message)])⟩
  | .listCreated id items =>
    ⟨.info, "List created", "ListsOrchestrator",
      some (.obj [("items", .nat items), ("list_id", .str id)])⟩
  | .allCleared lists =>
    ⟨.info, "All lists cleared", "ListsOrchestrator", some (.obj [("cleared", .nat lists)])⟩
  | .listsLoaded lists version =>
    ⟨.debug, "Lists loaded", "ListsOrchestrator",
      some (.obj [("lists", .nat lists), ("version", .nat version)])⟩
  | .itemsAdded listId items =>
    ⟨.debug, "Items added", "ListsOrchestrator",
      some (.obj [("count", .nat items), ("list_id", .str listId)])⟩
  | .enqueued op pending =>
    ⟨.debug, "Operation enqueued", "PriorityRetryQueue",
      some (.obj [
        ("id", .str op.id),
        ("name", .str op.name),
        ("pending", .nat pending),
        ("priority", op.priority.toJson)])⟩
  | .retrying a =>
    ⟨.warning, "Operation attempt failed, retrying", "PriorityRetryQueue", some (attemptData a)⟩
  | .exhausted a =>
    ⟨.error, "Operation failed, retries exhausted", "PriorityRetryQueue", some (attemptData a)⟩
  | .recovered id name attempts =>
    ⟨.info, "Operation succeeded after retry", "PriorityRetryQueue",
      some (.obj [
        ("attempts", .nat attempts.toNat),
        ("id", .str id),
        ("name", .str name)])⟩
  | .crashed id name =>
    ⟨.error, "Operation panicked", "PriorityRetryQueue",
      some (.obj [("id", .str id), ("name", .str name)])⟩
  | .operationsCancelled count =>
    ⟨.info, "Pending operations cancelled", "PriorityRetryQueue",
      some (.obj [("cancelled", .nat count)])⟩
  | .ready backend maxConcurrent =>
    ⟨.info, "Context ready", "AppContext",
      some (.obj [
        ("backend", .str backend),
        ("max_concurrent_operations", .nat maxConcurrent.toNat)])⟩
  | .syncScheduled priority =>
    ⟨.debug, "Background sync scheduled", "AppContext",
      some (.obj [("priority", priority.toJson)])⟩
  | .shutDown cancelled =>
    ⟨.info, "Context shut down", "AppContext", some (.obj [("cancelled", .nat cancelled)])⟩
  | .other entry => entry

def warning? : Notice → Option String
  | .compensationFailed operation e c =>
    let failure := e.message
    let compensation := c.message
    some s!"compensation for '{operation}' failed: original_error='{failure}'; compensation_error='{compensation}'"
  | _ => none

end Notice

end ListKeeper
