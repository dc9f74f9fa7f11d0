import ListKeeper.Json.Record
import ListKeeper.Queue.Priority

/-!
This module contains what a queue tells about its operations: the record of an operation that has
ended, the account of one that is running, and the numbers of each.
-/

namespace ListKeeper

inductive Status where
  | completed
  | failed
  | cancelled
deriving DecidableEq, Repr

namespace Status

def all : List Status :=
  [.completed, .failed, .cancelled]

def name : Status → String
  | .completed => "completed"
  | .failed => "failed"
  | .cancelled => "cancelled"

def ofName? (s : String) : Option Status :=
  all.find? fun status => status.name == s

def toJson (status : Status) : Json := .str status.name

def ofJson? (j : Json) : Option Status := j.name?.bind ofName?

end Status

structure Record where
  id : String
  name : String
  priority : Priority
  status : Status
  attempts : UInt32
  scheduledAt : Timestamp
  startedAt : Option Timestamp
  completedAt : Timestamp
  error : Option String
deriving DecidableEq, Repr

namespace Record

def fieldNames : List String :=
  ["id", "name", "priority", "status", "attempts", "scheduled_at", "started_at", "completed_at",
    "error"]

def toJson (r : Record) : Json :=
  .obj [
    ("id", .str r.id),
    ("name", .str r.name),
    ("priority", r.priority.toJson),
    ("status", r.status.toJson),
    ("attempts", .nat r.attempts.toNat),
    ("scheduled_at", .time r.scheduledAt),
    ("started_at", .opt .time r.startedAt),
    ("completed_at", .time r.completedAt),
    ("error", .opt .str r.error)]

def ofJson? (j : Json) : Option Record := do
  let fields ← j.record? fieldNames
  return {
    id := ← (fields "id").required Json.str?
    name := ← (fields "name").required Json.str?
    priority := ← (fields "priority").required Priority.ofJson?
    status := ← (fields "status").required Status.ofJson?
    attempts := ← (fields "attempts").required Json.word32?
    scheduledAt := ← (fields "scheduled_at").required Json.time?
    startedAt := ← (fields "started_at").optional Json.time?
    completedAt := ← (fields "completed_at").required Json.time?
    error := ← (fields "error").optional Json.str?
  }

end Record

structure InFlight where
  id : String
  name : String
  priority : Priority
  attempts : UInt32
  scheduledAt : Timestamp
  startedAt : Timestamp
deriving DecidableEq, Repr

namespace InFlight

def fieldNames : List String :=
  ["id", "name", "priority", "attempt_count", "scheduled_at", "started_at"]

def toJson (f : InFlight) : Json :=
  .obj [
    ("id", .str f.id),
    ("name", .str f.name),
    ("priority", f.priority.toJson),
    ("attempt_count", .nat f.attempts.toNat),
    ("scheduled_at", .time f.scheduledAt),
    ("started_at", .time f.startedAt)]

def ofJson? (j : Json) : Option InFlight := do
  let fields ← j.record? fieldNames
  return {
    id := ← (fields "id").required Json.str?
    name := ← (fields "name").required Json.str?
    priority := ← (fields "priority").required Priority.ofJson?
    attempts := ← (fields "attempt_count").required Json.word32?
    scheduledAt := ← (fields "scheduled_at").required Json.time?
    startedAt := ← (fields "started_at").required Json.time?
  }

end InFlight

structure Stats where
  pending : Nat
  inFlight : Nat
  completed : Nat
  failed : Nat
  cancelled : Nat
  processing : Bool
deriving DecidableEq, Repr

namespace Stats

def initial : Stats := ⟨0, 0, 0, 0, 0, false⟩

def fieldNames : List String :=
  ["pending", "in_flight", "completed", "failed", "cancelled", "is_processing"]

def toJson (s : Stats) : Json :=
  .obj [
    ("pending", .nat s.pending),
    ("in_flight", .nat s.inFlight),
    ("completed", .nat s.completed),
    ("failed", .nat s.failed),
    ("cancelled", .nat s.cancelled),
    ("is_processing", .bool s.processing)]

def ofJson? (j : Json) : Option Stats := do
  let fields ← j.record? fieldNames
  return {
    pending := ← (fields "pending").required (Json.natBelow? UInt64.size)
    inFlight := ← (fields "in_flight").required (Json.natBelow? UInt64.size)
    completed := ← (fields "completed").required (Json.natBelow? UInt64.size)
    failed := ← (fields "failed").required (Json.natBelow? UInt64.size)
    cancelled := ← (fields "cancelled").required (Json.natBelow? UInt64.size)
    processing := ← (fields "is_processing").required Json.bool?
  }

end Stats
end ListKeeper
