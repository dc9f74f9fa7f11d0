import ListKeeper.Config.Basic

/-!
This module contains how settings are read from environment variables.
-/

namespace ListKeeper.Config

open Text

abbrev Environment := String → Option String

def parseNat? (cs : List Char) : Option Nat :=
  let ds :=
    match cs with
    | '+' :: rest => rest
    | _ => cs
  if !ds.isEmpty && ds.all Char.isDigit then some (digitsValue ds) else none

def parseWord64? (cs : List Char) : Option UInt64 := do
  let n ← parseNat? cs
  if n < UInt64.size then some (UInt64.ofNat n) else none

def parseWord32? (cs : List Char) : Option UInt32 := do
  let n ← parseNat? cs
  if n < UInt32.size then some (UInt32.ofNat n) else none

def parseBool? (cs : List Char) : Option Bool :=
  if cs = "true".toList then some true
  else if cs = "false".toList then some false
  else none

def setting (env : Environment) (key : String) (parse : List Char → Option α) (initial : α) :
    Except Error α :=
  match env key with
  | none => .ok initial
  | some value =>
    match parse (trim value.toList) with
    | some a => .ok a
    | none => .error (.invalidConfig s!"{key} has invalid value '{value}'")

/--
The valid settings that an environment makes. The first variable that cannot be read is the one
that is told about.
-/
def ofEnvironment (env : Environment) : Except Error Config := do
  let maxConcurrent ←
    setting env "PRIORIS_MAX_CONCURRENT_OPERATIONS" parseWord64? initial.queue.maxConcurrent
  let maxRetries ← setting env "PRIORIS_MAX_RETRIES" parseWord32? initial.queue.maxRetries
  let retryDelay ← setting env "PRIORIS_RETRY_DELAY_MS"
    (fun cs => (parseWord64? cs).map fun ms => Duration.ofMillis ms.toNat)
    initial.queue.retryDelay
  let verifyWrites ← setting env "PRIORIS_VERIFY_WRITES" parseBool? initial.keeper.verifyWrites
  let config : Config := {
    queue := { QueueConfig.initial with maxConcurrent, maxRetries, retryDelay }
    keeper := { KeeperConfig.initial with verifyWrites }
    backend := (env "PRIORIS_BACKEND").getD initial.backend
    dataPath := env "PRIORIS_DATA_PATH"
  }
  config.validate
  return config

end ListKeeper.Config
