import ListKeeper.Act
import ListKeeper.Simulation.Roster

/-!
This module contains actions that run side by side. A few are run in passes: each goes on in turn as
far as it can. Many become branches that are roused one by one. In both cases the results are
collected in order, and the first failure ends the whole.
-/

namespace ListKeeper

namespace Act

def abandonAll (ms : List (Act ω α)) (w : ω) : ω :=
  ms.foldl (fun w m => m.abandon w) w

def results? : List (Act ω α) → Option (List α)
  | [] => some []
  | .done (.ok a) :: rest => (results? rest).map (a :: ·)
  | _ => none

def pass (f : List (Act ω α) → Act ω β) (before : List (Act ω α)) : List (Act ω α) → Act ω β
  | [] => f before
  | m :: after =>
    m.recheck.upToWait fun
      | .done (.error e) => .step (abandonAll (before ++ after)) fun _ => fail e
      | m => pass f (before ++ [m]) after

def inPasses : (fuel : Nat) → List (Act ω α) → Act ω (List α)
  | 0, ms => inTurn ms
  | fuel + 1, ms =>
    pass (fun ms =>
      match results? ms with
      | some results => pure results
      | none => .wait (fun w => ms.any (·.isReady w)) (abandonAll ms) (inPasses fuel ms)) [] ms

theorem Prompt.abandonAll_eq {ms : List (Act ω α)} (hms : ∀ m ∈ ms, m.Prompt) (w : ω) :
    abandonAll ms w = w := by
  induction ms with
  | nil => rfl
  | cons m rest ih =>
    have h := (hms m (by simp)).abandon_eq w
    simpa [abandonAll, h] using ih fun m' hm' => hms m' (by simp [hm'])

theorem results?_map_ok (as : List α) :
    results? (as.map fun a => (.done (.ok a) : Act ω α)) = some as := by
  induction as with
  | nil => rfl
  | cons a rest ih => simp [results?, ih]

theorem run_pass {ms : List (Act ω α)} (hms : ∀ m ∈ ms, m.Prompt)
    (f : List (Act ω α) → Act ω β) (as : List α) (w : ω) :
    (pass f (as.map fun a => .done (.ok a)) ms).run w =
      match (inTurn ms).run w with
      | (.ok as', w) => (f ((as ++ as').map fun a => .done (.ok a))).run w
      | (.error e, w) => (.error e, w) := by
  induction ms generalizing as w with
  | nil => simp [pass, inTurn, pure, run]
  | cons m rest ih =>
    have hm := hms m (by simp)
    have hrest : ∀ m' ∈ rest, m'.Prompt := fun m' h => hms m' (by simp [h])
    rw [pass, hm.recheck_eq, hm.run_upToWait, run_inTurn_cons]
    rcases m.run w with ⟨e | a, w⟩
    · have h : ∀ m' ∈ (as.map fun a => (.done (.ok a) : Act ω α)) ++ rest, m'.Prompt := by
        intro m' h
        rcases List.mem_append.1 h with h | h
        · obtain ⟨a, _, rfl⟩ := List.mem_map.1 h
          trivial
        · exact hrest m' h
      simp [run, Prompt.abandonAll_eq h, fail]
    · have h := ih hrest (as ++ [a]) w
      simp only [List.map_append, List.map_cons, List.map_nil] at h
      simp only [h]
      rcases (inTurn rest).run w with ⟨e | as', w⟩ <;> simp

theorem run_inPasses {ms : List (Act ω α)} (hms : ∀ m ∈ ms, m.Prompt) (fuel : Nat) (w : ω) :
    (inPasses (fuel + 1) ms).run w = (inTurn ms).run w := by
  have h := run_pass hms (fun ms =>
    match results? ms with
    | some results => pure results
    | none => .wait (fun w => ms.any (·.isReady w)) (abandonAll ms) (inPasses fuel ms)) [] w
  rw [inPasses, ← List.map_nil, h]
  rcases (inTurn ms).run w with ⟨e | as, w⟩
  · rfl
  · simp [results?_map_ok, run, pure]

end Act

structure Branch (ω α : Type) where
  place : Nat
  strand : Strand
  action : Act ω α

structure Gathering (ω α : Type) where
  home : Strand
  branches : List (Branch ω α)
  outcomes : List (Option (Except Error α))
  remaining : Nat
  restless : Nat

namespace Gathering

def create (roster : Roster) (ms : List (Act ω α)) : Gathering ω α where
  home := roster.running
  branches := (ms.zipIdx.zipWith (fun (m, i) strand => ⟨i, strand, m⟩)
    (roster.branches ms.length)).reverse
  outcomes := List.replicate ms.length none
  remaining := ms.length
  restless := 0

variable (g : Gathering ω α)

def failure? : List (Option (Except Error α)) → Option Error
  | some (.ok _) :: rest => failure? rest
  | some (.error e) :: _ => some e
  | _ => none

def results : List α :=
  g.outcomes.filterMap fun
    | some (.ok a) => some a
    | _ => none

def next? (roster : Roster) : Option (Branch ω α) :=
  roster.roused.findSome? fun strand => g.branches.find? (·.strand == strand)

def recount : Gathering ω α :=
  { g with remaining := g.branches.length, restless := 0 }

def conclude (b : Branch ω α) (outcome : Except Error α) : Gathering ω α :=
  { g with
    branches := g.branches.filter (·.place != b.place)
    outcomes := g.outcomes.set b.place (some outcome) }.recount

def keep (b : Branch ω α) (action : Act ω α) (roused : Bool) : Gathering ω α :=
  { g with
    branches := { b with action := action } :: g.branches.filter (·.place != b.place)
    remaining := g.remaining - 1
    restless := if roused then g.restless + 1 else g.restless }

def isSated : Bool :=
  g.remaining == 0 || 2 ≤ g.restless

variable (roster : ω → Roster) (lift : (Roster → Roster) → ω → ω)

def abandon (w : ω) : ω :=
  g.branches.foldl
    (fun w b => lift (·.calm b.strand) w) (Act.abandonAll (g.branches.map (·.action)) w)

def suspend (next : Act ω (List α)) : Act ω (List α) :=
  .wait (fun w => g.branches.any fun b => (roster w).isRoused b.strand) (g.abandon lift) next

def run : (fuel : Nat) → Gathering ω α → Act ω (List α)
  | 0, g => .step (g.abandon lift) fun _ => .fail (.internal "out of turns")
  | fuel + 1, g =>
    match failure? g.outcomes with
    | some e => .step (g.abandon lift) fun _ => .fail e
    | none =>
      if g.branches.isEmpty then
        .pure g.results
      else
        .step id fun w =>
          match g.next? (roster w) with
          | none => g.suspend roster lift (run fuel g.recount)
          | some b =>
            .step (lift (·.enter b.strand)) fun _ =>
              b.action.recheck.upToWait fun
                | .done outcome =>
                  .step (lift fun roster => { roster.calm b.strand with running := g.home })
                    fun _ => run fuel (g.conclude b outcome)
                | action =>
                  .step (lift fun roster => { roster with running := g.home }) fun w =>
                    let g := g.keep b action ((roster w).isRoused b.strand)
                    if g.isSated then
                      .step (lift (·.rouse g.home)) fun _ =>
                        g.suspend roster lift (run fuel g.recount)
                    else
                      run fuel g

end Gathering

namespace Act

def passLimit : Nat := 30

/--
Run actions side by side and collect the results. The roster is a part of the state, and a change of
it is carried over to the state by `lift`.
-/
def sideBySide (roster : ω → Roster) (lift : (Roster → Roster) → ω → ω) (ms : List (Act ω α)) :
    Act ω (List α) :=
  if ms.length ≤ passLimit then
    inPasses Roster.turnLimit ms
  else
    .step (lift (·.branchOff ms.length)) fun w =>
      Gathering.run roster lift Roster.turnLimit (.create (roster w) ms)

end Act
end ListKeeper
