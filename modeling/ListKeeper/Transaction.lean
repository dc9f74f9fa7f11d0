import ListKeeper.World

/-!
This module contains transactions: a forward action, and a compensation that undoes it when it
fails. The failure of the forward action is what the caller gets, even when undoing fails too.
-/

namespace ListKeeper

namespace Tally

def commit (t : Tally) : Tally :=
  { t with committed := t.committed + 1 }

def rollBack (t : Tally) : Tally :=
  { t with rolledBack := t.rolledBack + 1 }

def failCompensation (t : Tally) : Tally :=
  { t with compensationFailures := t.compensationFailures + 1 }

end Tally

def compensate (operation : String) (e : Error) (compensation : Act (World σ) Unit) :
    Act (World σ) Unit := do
  Act.notice (.compensating operation e)
  match ← compensation.outcome with
  | .ok () => pure ()
  | .error c =>
    Act.count Tally.failCompensation
    Act.notice (.compensationFailed operation e c)
  Act.count Tally.rollBack

/--
Run the forward action of a transaction, which also tells how far it came. If it fails, what it did
until then is undone.
-/
def transactTracking (operation : String) (forward : Act (World σ) (Except Error α × β))
    (compensation : β → Act (World σ) Unit) : Act (World σ) α := do
  match ← forward with
  | (.ok a, _) =>
    Act.count Tally.commit
    return a
  | (.error e, done) =>
    compensate operation e (compensation done)
    Act.fail e

def transact (operation : String) (forward : Act (World σ) α)
    (compensation : Act (World σ) Unit) : Act (World σ) α :=
  transactTracking operation (do return (← forward.outcome, ())) fun _ => compensation

end ListKeeper
