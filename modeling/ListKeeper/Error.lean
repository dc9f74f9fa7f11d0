import ListKeeper.Text.Basic

/-!
This module contains the ways in which an operation fails, with what is written about them to the
log and to the user.
-/

namespace ListKeeper

inductive Error where
  | notFound (kind id : String)
  | verificationFailed (operation entityId : String)
  | persistence (operation source : String)
  | cancelled (id name : String)
  | retriesExhausted (name : String) (attempts : UInt32) (source : String)
  | invalidConfig (reason : String)
  | internal (reason : String)
deriving DecidableEq, Repr

namespace Error

def kind : Error → String
  | .notFound .. => "not_found"
  | .verificationFailed .. => "verification_failed"
  | .persistence .. => "persistence"
  | .cancelled .. => "cancelled"
  | .retriesExhausted .. => "retries_exhausted"
  | .invalidConfig .. => "invalid_config"
  | .internal .. => "internal"

def message : Error → String
  | .notFound kind id => s!"{kind} '{id}' not found"
  | .verificationFailed operation entityId =>
    s!"Verification failed for {operation} on '{entityId}'"
  | .persistence operation source => s!"Persistence error during {operation}: {source}"
  | .cancelled id name => s!"Operation '{name}' ({id}) was cancelled before execution"
  | .retriesExhausted name attempts source =>
    let count := Text.decimal attempts.toNat
    s!"Operation '{name}' failed after {count} attempt(s): {source}"
  | .invalidConfig reason => s!"Invalid configuration: {reason}"
  | .internal reason => s!"Internal error: {reason}"

def userMessage : Error → String
  | .notFound kind _ => s!"The requested {kind} no longer exists."
  | .verificationFailed .. => "The change could not be confirmed by storage and was undone."
  | .persistence .. => "Saving failed. Your previous data has been kept."
  | .cancelled .. => "The operation was cancelled."
  | .retriesExhausted _ attempts _ =>
    let count := Text.decimal attempts.toNat
    s!"The operation kept failing after {count} attempt(s)."
  | .invalidConfig _ | .internal _ => "An unexpected error occurred."

def retryable : Error → Bool
  | .persistence .. | .verificationFailed .. => true
  | _ => false

def source? : Error → Option String
  | .persistence _ source | .retriesExhausted _ _ source => some source
  | _ => none

end Error
end ListKeeper
