import ListKeeper.Json.Basic

/-!
This module contains the priorities of queued operations.
-/

namespace ListKeeper

inductive Priority where
  | low
  | medium
  | high
  | critical
deriving DecidableEq, Repr

namespace Priority

def all : List Priority :=
  [.low, .medium, .high, .critical]

def rank : Priority → Nat
  | .low => 0
  | .medium => 1
  | .high => 2
  | .critical => 3

def name : Priority → String
  | .low => "low"
  | .medium => "medium"
  | .high => "high"
  | .critical => "critical"

def ofName? (s : String) : Option Priority :=
  all.find? fun priority => priority.name == s

def toJson (priority : Priority) : Json := .str priority.name

def ofJson? (j : Json) : Option Priority := j.name?.bind ofName?

end Priority
end ListKeeper
