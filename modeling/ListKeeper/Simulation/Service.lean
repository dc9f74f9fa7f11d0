import ListKeeper.Simulation.Bench
import ListKeeper.Simulation.Join
import ListKeeper.Simulation.Machine

/-!
This module contains the keeper over storage under test. Each call of storage is noted down, and a
rule may make calls of the keeper in between, let the call fail, or answer in the place of storage.
-/

namespace ListKeeper
namespace Bench

def answer? (bench : Bench) : Request α → Option α
  | .verify change id =>
    (bench.rules.find? fun rule =>
      rule.concerns (Request.verify change id).method id && rule.answer.isSome).bind (·.answer)
  | _ => none

def makeCall (request : Request α) : Act Bench α := do
  match (← Act.get).answer? request with
  | some answer => return answer
  | none => askCurrent request

def consult (request : Request α) : Act Bench (Option Rule) :=
  .atomic fun bench =>
    let rules := bench.rules.map (Rule.see request.method request.subject)
    (.ok (rules.find? (·.isDue request.method request.subject)), { bench with rules := rules })

def respond (run : Call → Act (World Bench) Unit) (request : Request α) :
    Act (World Bench) α := do
  Act.modify (·.observe (.called request.method request.subject))
  match ← (consult request).ofStorage with
  | none => (makeCall request).ofStorage
  | some rule =>
    Act.each run (rule.calls.getD [])
    match rule.failure with
    | none => (makeCall request).ofStorage
    | some e =>
      if rule.takesEffect then
        let _ ← (makeCall request).ofStorage
      Act.fail e

def answer (run : Call → Act (World Bench) Unit) (request : Request α) :
    Act (World Bench) α := do
  match (← Act.get).storage.own with
  | some i => (ask i request).ofStorage
  | none => respond run request

def within (f : Bench → Bench) (w : World Bench) : World Bench :=
  { w with storage := f w.storage }

def together (ms : List (Act (World Bench) α)) : Act (World Bench) (List α) :=
  .sideBySide (·.storage.roster) (fun f => within (modifyRoster f)) ms

def nestingLimit : Nat := 100000

/--
Storage under test as a gateway, where calls that rules make are nested up to the given depth.
-/
def gateway (config : KeeperConfig) : (depth : Nat) → Gateway (World Bench)
  | 0 => ⟨answer fun _ => pure (), together⟩
  | depth + 1 =>
    ⟨answer fun call => do
      let _ ← ((Keeper.mk config (gateway config depth)).perform call).outcome,
      together⟩

def host (config : KeeperConfig) : Host Bench where
  keeper := ⟨config, gateway config nestingLimit⟩
  turn number := within (modifyRoster (·.turn number))
  proceed w :=
    if w.storage.roster.isSpent then none else some (within (modifyRoster Roster.spend) w)
  postpone := within (modifyRoster Roster.postpone)
  roused w := w.storage.roster.tasks
  rest := within (modifyRoster Roster.resume)
  work w := w.storage.work.map fun bench => within (fun _ => bench) w

end Bench
end ListKeeper
