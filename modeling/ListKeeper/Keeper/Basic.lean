import ListKeeper.Config.Basic
import ListKeeper.Transaction

/-!
This module contains what all calls of the keeper share: reports of failures, verified writes, and
reading everything from storage.
-/

namespace ListKeeper

structure Keeper (σ : Type) where
  config : KeeperConfig
  gateway : Gateway (World σ)

namespace Keeper

def reportFailure (operation : String) (e : Error) (edit : Draft → Draft) :
    Act (World σ) Unit := do
  Act.modify (·.observe (.reported s!"ListsOrchestrator::{operation}" e))
  let _ ← Act.publish fun d => edit { d with error := some e.userMessage }

def settle (operation : String) (m : Act (World σ) α) : Act (World σ) α := do
  match ← m.outcome with
  | .ok a => return a
  | .error e =>
    reportFailure operation e id
    Act.fail e

variable (k : Keeper σ)

def ask (request : Request α) : Act (World σ) α :=
  k.gateway.ask request

def verifyWrite (change : Change) (id : String) : Act (World σ) Unit := do
  if k.config.verifyWrites then
    if ← k.ask (.verify change id) then
      pure ()
    else
      Act.fail (.verificationFailed change.name id)

def fetchAll : Act (World σ) (List Checklist) := do
  let lists ← k.ask .allLists
  k.gateway.together
    (lists.map fun list => do return list.withItems (← k.ask (.itemsOf list.id)))

def write (change : Write) : Act (World σ) Unit :=
  k.ask change.request

def writeAll : List Write → Act (World σ) (Except Error Unit × Nat)
  | [] => return (.ok (), 0)
  | change :: rest => do
    match ← (k.write change).outcome with
    | .error e => return (.error e, 0)
    | .ok () =>
      let (outcome, made) ← writeAll rest
      return (outcome, made + 1)

end Keeper
end ListKeeper
