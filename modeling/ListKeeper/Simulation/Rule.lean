import ListKeeper.Keeper.Call

/-!
This module contains the rules that storage under test follows.
-/

namespace ListKeeper

/--
What happens when storage is called by a method, about the entity with the given id or about any.
The rule is followed at its `nth` call, or at every one.
-/
structure Rule where
  method : String
  id : Option String
  nth : Option Nat
  calls : Option (List Call)
  failure : Option Error
  takesEffect : Bool
  answer : Option Bool
  seen : Nat

namespace Rule

def concerns (rule : Rule) (method subject : String) : Bool :=
  rule.method == method && rule.id.all (· == subject)

def see (method subject : String) (rule : Rule) : Rule :=
  if rule.concerns method subject then { rule with seen := rule.seen + 1 } else rule

def due (rule : Rule) : Option Nat :=
  match rule.nth, rule.calls with
  | some n, _ => some n
  | none, some _ => some 1
  | none, none => none

def isDue (rule : Rule) (method subject : String) : Bool :=
  rule.concerns method subject && rule.due.all (· == rule.seen)

end Rule

end ListKeeper
