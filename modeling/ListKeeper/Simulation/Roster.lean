/-!
This module contains the order in which strands of work get their turns. A strand runs until it has
to wait, and gets another turn after it was roused. A strand may consist of branches, which are
strands of their own; to rouse a branch is to rouse the whole as well.
-/

namespace ListKeeper

abbrev Strand := List Nat

structure Roster where
  running : Strand
  roused : List Strand
  postponed : List Strand
  budget : Option Nat
  nextBranch : Nat
deriving DecidableEq, Repr

namespace Roster

/--
How many waits may end in one turn of a task. The turns of the user, who is number zero, have no
limit.
-/
def allowance (number : Nat) : Option Nat :=
  if number = 0 then none else some 128

def turnLimit : Nat := 1000000

def ofTask (number : Nat) : Strand := [number]

def start : Roster where
  running := ofTask 0
  roused := []
  postponed := []
  budget := allowance 0
  nextBranch := 0

variable (roster : Roster)

def isRoused (strand : Strand) : Bool :=
  roster.roused.contains strand

def rouse (roster : Roster) : Strand → Roster
  | [] => roster
  | number :: whole =>
    if roster.isRoused (number :: whole) then
      roster
    else
      { roster with roused := roster.roused ++ [number :: whole] }.rouse whole

def rouseAll (strands : List Strand) : Roster :=
  strands.foldl rouse roster

def calm (strand : Strand) : Roster :=
  { roster with roused := roster.roused.erase strand }

def enter (strand : Strand) : Roster :=
  { roster.calm strand with running := strand }

def turn (number : Nat) : Roster :=
  { roster.enter (ofTask number) with budget := allowance number }

def tasks : List Nat :=
  roster.roused.filterMap fun
    | [number] => some number
    | _ => none

def isSpent : Bool :=
  roster.budget == some 0

def spend : Roster :=
  { roster with budget := roster.budget.map (· - 1) }

def postpone : Roster :=
  if roster.postponed.head? == some roster.running then
    roster
  else
    { roster with postponed := roster.running :: roster.postponed }

def resume : Roster :=
  { roster with postponed := [] }.rouseAll roster.postponed

def branches (count : Nat) : List Strand :=
  (List.range count).map fun i => (roster.nextBranch + i) :: roster.running

def branchOff (count : Nat) : Roster :=
  { roster with
    roused := roster.roused ++ roster.branches count
    nextBranch := roster.nextBranch + count }

end Roster
end ListKeeper
