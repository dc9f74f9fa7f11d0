import ListKeeper.Simulation.Roster

/-!
This module contains a lock that lets either one claim through that needs everything for itself, or
any number of claims that do not. Claims are let through in the order in which they were made.
-/

namespace ListKeeper

structure Claim where
  ticket : Nat
  exclusive : Bool
  strand : Strand
deriving DecidableEq, Repr

structure Lock where
  holding : List Claim
  waiting : List Claim
deriving DecidableEq, Repr

namespace Lock

def free : Lock := ⟨[], []⟩

def admits (holding : List Claim) (claim : Claim) : Bool :=
  if claim.exclusive then holding.isEmpty else holding.all (!·.exclusive)

def letThrough (holding : List Claim) : List Claim → Lock
  | [] => ⟨holding, []⟩
  | claim :: rest =>
    if admits holding claim then letThrough (holding ++ [claim]) rest
    else ⟨holding, claim :: rest⟩

def request (lock : Lock) (claim : Claim) : Lock :=
  letThrough lock.holding (lock.waiting ++ [claim])

def release (lock : Lock) (ticket : Nat) : Lock :=
  letThrough (lock.holding.filter (·.ticket != ticket)) (lock.waiting.filter (·.ticket != ticket))

def isHeldBy (lock : Lock) (ticket : Nat) : Bool :=
  lock.holding.any (·.ticket == ticket)

def granted (before after : Lock) : List Strand :=
  (after.holding.filter fun claim => !before.isHeldBy claim.ticket).map (·.strand)

end Lock
end ListKeeper
