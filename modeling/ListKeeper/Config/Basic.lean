import ListKeeper.Error
import ListKeeper.Json.Parser
import ListKeeper.Json.Record
import ListKeeper.Text.Basic
import ListKeeper.Time.Timestamp

/-!
This module contains the settings of the program, their written form and their validation.
-/

namespace ListKeeper

structure QueueConfig where
  maxConcurrent : UInt64
  maxRetries : UInt32
  retryDelay : Duration
  maxHistory : UInt64
deriving DecidableEq, Repr

namespace QueueConfig

def initial : QueueConfig where
  maxConcurrent := 3
  maxRetries := 3
  retryDelay := .ofMillis 1000
  maxHistory := 1000

def validate (c : QueueConfig) : Except Error Unit :=
  if c.maxConcurrent = 0 then
    .error (.invalidConfig "max_concurrent_operations must be at least 1")
  else
    .ok ()

def toJson (c : QueueConfig) : Json :=
  .obj [
    ("max_concurrent_operations", .nat c.maxConcurrent.toNat),
    ("default_max_retries", .nat c.maxRetries.toNat),
    ("default_retry_delay_ms", .nat c.retryDelay.millisWord.toNat),
    ("max_history", .nat c.maxHistory.toNat)]

def ofJson? (j : Json) : Option QueueConfig := do
  let fields ← j.record?
    ["max_concurrent_operations", "default_max_retries", "default_retry_delay_ms", "max_history"]
  return {
    maxConcurrent := ←
      (fields "max_concurrent_operations").orElse Json.word64? initial.maxConcurrent
    maxRetries := ← (fields "default_max_retries").orElse Json.word32? initial.maxRetries
    retryDelay := ← (fields "default_retry_delay_ms").orElse
      (fun j => j.word64?.map fun ms => .ofMillis ms.toNat) initial.retryDelay
    maxHistory := ← (fields "max_history").orElse Json.word64? initial.maxHistory
  }

end QueueConfig

structure KeeperConfig where
  verifyWrites : Bool
  reloadAfterClearRollback : Bool
deriving DecidableEq, Repr

namespace KeeperConfig

def initial : KeeperConfig := ⟨true, true⟩

def validate (_ : KeeperConfig) : Except Error Unit := .ok ()

def toJson (c : KeeperConfig) : Json :=
  .obj [
    ("verify_writes", .bool c.verifyWrites),
    ("reload_after_clear_rollback", .bool c.reloadAfterClearRollback)]

def ofJson? (j : Json) : Option KeeperConfig := do
  let fields ← j.record? ["verify_writes", "reload_after_clear_rollback"]
  return {
    verifyWrites := ← (fields "verify_writes").orElse Json.bool? initial.verifyWrites
    reloadAfterClearRollback := ←
      (fields "reload_after_clear_rollback").orElse Json.bool? initial.reloadAfterClearRollback
  }

end KeeperConfig

structure Config where
  queue : QueueConfig
  keeper : KeeperConfig
  backend : String
  dataPath : Option String
deriving DecidableEq, Repr

namespace Config

def initial : Config := ⟨.initial, .initial, "memory", none⟩

def validate (c : Config) : Except Error Unit := do
  c.queue.validate
  c.keeper.validate
  if Text.isBlankText c.backend then
    .error (.invalidConfig "backend must not be empty")

def toJson (c : Config) : Json :=
  .obj [
    ("queue", c.queue.toJson),
    ("orchestrator", c.keeper.toJson),
    ("backend", .str c.backend),
    ("data_path", .opt .str c.dataPath)]

def ofJson? (j : Json) : Option Config := do
  let fields ← j.record? ["queue", "orchestrator", "backend", "data_path"]
  return {
    queue := ← (fields "queue").orElse QueueConfig.ofJson? .initial
    keeper := ← (fields "orchestrator").orElse KeeperConfig.ofJson? .initial
    backend := ← (fields "backend").orElse Json.str? initial.backend
    dataPath := ← (fields "data_path").orElse (Json.nullable? Json.str?) none
  }

def ofText (s : String) : Except Error Config :=
  match (Json.ofText? s).bind ofJson? with
  | none => .error (.invalidConfig "Invalid JSON config: not a configuration")
  | some c => do
    c.validate
    return c

end Config
end ListKeeper
