import ListKeeper.Json.Canonical
import ListKeeper.Json.Printer
import ListKeeper.Notice

/-!
This module contains what can be observed while the program runs, and the stream that entries of the
log and reports of failures become when nobody else takes them.
-/

namespace ListKeeper

structure Span where
  name : String
  fields : List (String × Json)

inductive Event where
  | noticed (notice : Notice)
  | reported (context : String) (error : Error)
  | entered (span : Span)
  | published (snapshot : Snapshot)
  | called (method subject : String)

/--
A publish whose snapshot cannot be told breaks its call down.
-/
def Event.isTold (now : Timestamp) : Event → Bool
  | .published snapshot => snapshot.isTold now
  | _ => true

structure Trace where
  level : Level
  fields : List (String × Json)

def Entry.trace (e : Entry) : Trace where
  level := e.level
  fields := [
    ("message", .str e.message),
    ("context", .str e.context),
    ("data", .str ((e.data.map fun j => j.canonical.toText).getD ""))]

def Error.trace (e : Error) (context : String) : Trace where
  level := .error
  fields := [
    ("message", .str "operation failed"),
    ("context", .str context),
    ("kind", .str e.kind),
    ("retryable", .bool e.retryable),
    ("user_message", .str e.userMessage),
    ("error", .str e.message)]

end ListKeeper
