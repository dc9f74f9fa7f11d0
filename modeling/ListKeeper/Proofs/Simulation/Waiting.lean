import ListKeeper.Simulation.Join
import Mathlib.Logic.Relation

/-!
This module contains what actions may come to that have to wait, while others change the state
between any two of their steps. Actions that run side by side take their steps in any order. When
one of them has failed, the rest may be given up, and the failure that counts is the first one in
the order of the actions, not the first one in time.
-/

namespace ListKeeper.Act

open Relation

variable {other : ω → ω → Prop}

/--
While others change the state as `other` says, an action comes to an outcome and a state.
-/
inductive ComesTo (other : ω → ω → Prop) : Act ω α → ω → Except Error α → ω → Prop
  | done (outcome : Except Error α) {w w' : ω} (h : ReflTransGen other w w') :
    ComesTo other (.done outcome) w outcome w'
  | step (change : ω → ω) (next : ω → Act ω α) {w w₁ w' : ω} {r : Except Error α}
    (h : ReflTransGen other w w₁) (hnext : ComesTo other (next w₁) (change w₁) r w') :
    ComesTo other (.step change next) w r w'
  | wait (ready : ω → Bool) (giveUp : ω → ω) (next : Act ω α) {w w₁ w' : ω} {r : Except Error α}
    (h : ReflTransGen other w w₁) (hready : ready w₁ = true) (hnext : ComesTo other next w₁ r w') :
    ComesTo other (.wait ready giveUp next) w r w'

namespace ComesTo

variable {m : Act ω α} {w w' w₁ : ω} {r : Except Error α}

theorem others (h : ReflTransGen other w w₁) (hm : ComesTo other m w₁ r w') :
    ComesTo other m w r w' := by
  cases hm with
  | done _ h' => exact .done _ (h.trans h')
  | step change next h' hnext => exact .step change next (h.trans h') hnext
  | wait ready giveUp next h' hready hnext =>
    exact .wait ready giveUp next (h.trans h') hready hnext

theorem continueWith {f : Except Error α → Act ω β} {r : Except Error β}
    (h : ComesTo other (m.continueWith f) w r w') :
    ∃ r₁ w₁, ComesTo other m w r₁ w₁ ∧ ComesTo other (f r₁) w₁ r w' := by
  induction m generalizing w with
  | done outcome => exact ⟨_, w, ComesTo.done _ .refl, h⟩
  | step change next ih =>
    cases h with
    | step _ _ h hnext =>
      obtain ⟨r₁, w₁, hm, hf⟩ := ih _ hnext
      exact ⟨r₁, w₁, .step change next h hm, hf⟩
  | wait ready giveUp next ih =>
    cases h with
    | wait _ _ _ h hready hnext =>
      obtain ⟨r₁, w₁, hm, hf⟩ := ih hnext
      exact ⟨r₁, w₁, .wait ready giveUp next h hready hm, hf⟩

theorem of_poll (h : ComesTo other (m.poll w).1 (m.poll w).2 r w') : ComesTo other m w r w' := by
  induction m generalizing w with
  | done outcome => exact h
  | step change next ih => exact .step change next .refl (ih w h)
  | wait ready giveUp next ih => exact h

theorem of_recheck (h : ComesTo other m.recheck w r w') : ComesTo other m w r w' := by
  cases m with
  | done outcome => exact h
  | step change next => exact h
  | wait ready giveUp next =>
    cases h with
    | @step _ _ _ w₁ _ _ h hnext =>
      dsimp only [id] at hnext
      split at hnext
      · next hready => exact .wait ready giveUp next h hready hnext
      · exact hnext.others h

end ComesTo

theorem comesTo_atomic {f : ω → Except Error α × ω} {w w' : ω} {r : Except Error α}
    (h : ComesTo other (atomic f) w r w') :
    ∃ w₁, ReflTransGen other w w₁ ∧ r = (f w₁).1 ∧ ReflTransGen other (f w₁).2 w' := by
  cases h with
  | step _ _ hothers hnext =>
    cases hnext with
    | done _ hafter => exact ⟨_, hothers, rfl, hafter⟩

def isReadyThroughout : Act ω α → ω → Bool
  | .done _, _ => true
  | .step change next, w => (next w).isReadyThroughout (change w)
  | .wait ready _ next, w => ready w && next.isReadyThroughout w

theorem comesTo_run {m : Act ω α} {w : ω} (h : m.isReadyThroughout w = true) :
    m.ComesTo other w (m.run w).1 (m.run w).2 := by
  induction m generalizing w with
  | done outcome => exact .done outcome .refl
  | step change next ih => exact .step change next .refl (ih w h)
  | wait ready giveUp next ih =>
    obtain ⟨hready, hnext⟩ := Bool.and_eq_true_iff.1 h
    exact .wait ready giveUp next .refl hready (ih hnext)

/--
While others change the state as `other` says, actions that run side by side come to an outcome and
a state. Any of them may take the next step.
-/
inductive JoinsAmid {ω α : Type} (other : ω → ω → Prop) :
    List (Act ω α) → ω → Except Error (List α) → ω → Prop
  | finished (as : List α) {w w' : ω} (h : ReflTransGen other w w') :
    JoinsAmid other (as.map fun a => .done (.ok a)) w (.ok as) w'
  | failed {ms : List (Act ω α)} {i : Nat} {e : Error} {w w' : ω}
    (hi : ms[i]? = some (.done (.error e)))
    (hfirst : ∀ j < i, ∀ e', ms[j]? ≠ some (.done (.error e')))
    (h : ReflTransGen (fun v v' => other v v' ∨ ∃ m ∈ ms, v' = m.abandon v) w w') :
    JoinsAmid other ms w (.error e) w'
  | step {ms : List (Act ω α)} {i : Nat} {change : ω → ω} {next : ω → Act ω α} {w w' : ω}
    {r : Except Error (List α)} (hi : ms[i]? = some (.step change next))
    (h : JoinsAmid other (ms.set i (next w)) (change w) r w') : JoinsAmid other ms w r w'
  | resume {ms : List (Act ω α)} {i : Nat} {ready : ω → Bool} {giveUp : ω → ω} {next : Act ω α}
    {w w' : ω} {r : Except Error (List α)} (hi : ms[i]? = some (.wait ready giveUp next))
    (hready : ready w = true) (h : JoinsAmid other (ms.set i next) w r w') :
    JoinsAmid other ms w r w'
  | others {ms : List (Act ω α)} {w w₁ w' : ω} {r : Except Error (List α)} (h : other w w₁)
    (hrest : JoinsAmid other ms w₁ r w') : JoinsAmid other ms w r w'

def JoinsAllAmid (other : ω → ω → Prop)
    (together : {α : Type} → List (Act ω α) → Act ω (List α)) : Prop :=
  ∀ {α : Type} (ms : List (Act ω α)) (w w' : ω) (r : Except Error (List α)),
    ComesTo other (together ms) w r w' → JoinsAmid other ms w r w'

theorem getElem?_middle (before after : List α) (a : α) :
    (before ++ a :: after)[before.length]? = some a := by
  rw [List.getElem?_append_right (Nat.le_refl _), Nat.sub_self, List.getElem?_cons_zero]

namespace JoinsAmid

variable {ms before after : List (Act ω α)} {m : Act ω α} {w w' w₁ : ω}
variable {r : Except Error (List α)}

theorem amid (h : ReflTransGen other w w₁) (hrest : JoinsAmid other ms w₁ r w') :
    JoinsAmid other ms w r w' := by
  induction h using ReflTransGen.head_induction_on with
  | refl => exact hrest
  | head h _ ih => exact .others h ih

theorem followed (h : JoinsAmid other ms w r w₁) (hafter : ReflTransGen other w₁ w') :
    JoinsAmid other ms w r w' := by
  induction h with
  | finished as h => exact .finished as (h.trans hafter)
  | failed hi hfirst h =>
    exact .failed hi hfirst (h.trans (ReflTransGen.mono (fun _ _ => .inl) _ _ hafter))
  | step hi _ ih => exact .step hi (ih hafter)
  | resume hi hready _ ih => exact .resume hi hready (ih hafter)
  | others h _ ih => exact .others h (ih hafter)

theorem stepMiddle {change : ω → ω} {next : ω → Act ω α}
    (h : JoinsAmid other (before ++ next w :: after) (change w) r w') :
    JoinsAmid other (before ++ .step change next :: after) w r w' := by
  apply JoinsAmid.step (getElem?_middle before after _)
  rw [List.set_append_right _ _ (Nat.le_refl _), Nat.sub_self]
  exact h

theorem resumeMiddle {ready : ω → Bool} {giveUp : ω → ω} {next : Act ω α}
    (hready : ready w = true) (h : JoinsAmid other (before ++ next :: after) w r w') :
    JoinsAmid other (before ++ .wait ready giveUp next :: after) w r w' := by
  apply JoinsAmid.resume (getElem?_middle before after _) hready
  rw [List.set_append_right _ _ (Nat.le_refl _), Nat.sub_self]
  exact h

theorem failedMiddle {e : Error} (hbefore : ∀ m ∈ before, ∀ e, m ≠ .done (.error e))
    (h : ReflTransGen (fun v v' => other v v' ∨
      ∃ m ∈ before ++ .done (.error e) :: after, v' = m.abandon v) w w') :
    JoinsAmid other (before ++ .done (.error e) :: after) w (.error e) w' := by
  apply JoinsAmid.failed (getElem?_middle before after _) _ h
  intro j hj e' hfails
  rw [List.getElem?_append_left hj] at hfails
  exact hbefore _ (List.mem_of_getElem? hfails) e' rfl

theorem of_comesTo {outcome : Except Error α} (hm : ComesTo other m w outcome w₁)
    (h : JoinsAmid other (before ++ .done outcome :: after) w₁ r w') :
    JoinsAmid other (before ++ m :: after) w r w' := by
  induction hm with
  | done outcome hothers => exact .amid hothers h
  | step change next hothers _ ih => exact .amid hothers (.stepMiddle (ih h))
  | wait ready giveUp next hothers hready _ ih =>
    exact .amid hothers (.resumeMiddle hready (ih h))

theorem of_upToWait {f : Act ω α → Act ω (List α)} (h : ComesTo other (m.upToWait f) w r w')
    (hf : ∀ m w, ComesTo other (f m) w r w' → JoinsAmid other (before ++ m :: after) w r w') :
    JoinsAmid other (before ++ m :: after) w r w' := by
  induction m generalizing w with
  | done outcome => exact hf _ w h
  | step change next ih =>
    cases h with
    | step _ _ hothers hnext => exact .amid hothers (.stepMiddle (ih _ hnext))
  | wait => exact hf _ w h

theorem of_recheck {f : Act ω α → Act ω (List α)}
    (h : ComesTo other (m.recheck.upToWait f) w r w')
    (hf : ∀ m w, ComesTo other (f m) w r w' → JoinsAmid other (before ++ m :: after) w r w') :
    JoinsAmid other (before ++ m :: after) w r w' := by
  cases m with
  | done outcome => exact of_upToWait h hf
  | step change next => exact of_upToWait h hf
  | wait ready giveUp next =>
    cases h with
    | step _ _ hothers hnext =>
      refine .amid hothers ?_
      dsimp only [id] at hnext
      split at hnext
      · next hready => exact .resumeMiddle hready (of_upToWait hnext hf)
      · exact hf _ _ hnext

theorem abandonAll_amid {before after ms : List (Act ω α)} (hms : ∀ m ∈ ms, m ∈ before ++ after)
    (m : Act ω α) (w : ω) :
    ReflTransGen (fun v v' => other v v' ∨ ∃ m' ∈ before ++ m :: after, v' = m'.abandon v) w
      (abandonAll ms w) := by
  induction ms generalizing w with
  | nil => exact .refl
  | cons first rest ih =>
    refine .head (.inr ⟨first, ?_, rfl⟩) (ih (fun m hm => hms m (List.mem_cons_of_mem _ hm)) _)
    have hfirst := hms first List.mem_cons_self
    exact List.mem_append.2 ((List.mem_append.1 hfirst).imp_right (List.mem_cons_of_mem m))

theorem of_pass {f : List (Act ω α) → Act ω (List α)}
    (hbefore : ∀ m ∈ before, ∀ e, m ≠ .done (.error e))
    (hf : ∀ ms w, ComesTo other (f ms) w r w' → JoinsAmid other ms w r w')
    (h : ComesTo other (pass f before after) w r w') :
    JoinsAmid other (before ++ after) w r w' := by
  -- The induction is on the actions that have not had their turn in this pass.
  induction after generalizing before w with
  | nil =>
    rw [List.append_nil]
    exact hf before w h
  | cons m after ih =>
    apply of_recheck h
    intro m w h
    have hon (hm : ∀ e, m ≠ .done (.error e))
        (h : ComesTo other (pass f (before ++ [m]) after) w r w') :
        JoinsAmid other (before ++ m :: after) w r w' := by
      rw [List.append_cons]
      refine ih ?_ h
      intro m' hm'
      rcases List.mem_append.1 hm' with hm' | hm'
      · exact hbefore m' hm'
      · rw [List.mem_singleton.1 hm']
        exact hm
    match m with
    | .done (.error e) =>
      cases h with
      | step _ _ hothers hnext =>
        cases hnext with
        | done _ hafter =>
          apply failedMiddle hbefore
          exact (ReflTransGen.mono (fun _ _ => .inl) _ _ hothers).trans <|
            (abandonAll_amid (fun _ => id) _ _).trans <|
              ReflTransGen.mono (fun _ _ => .inl) _ _ hafter
    | .done (.ok a) => exact hon nofun h
    | .step change next => exact hon nofun h
    | .wait ready giveUp next => exact hon nofun h

end JoinsAmid

theorem joinsAmid_inTurn (as : List α) {ms : List (Act ω α)} {w w' : ω}
    {r : Except Error (List α)} (h : ComesTo other (inTurn ms) w r w') :
    JoinsAmid other ((as.map fun a => .done (.ok a)) ++ ms) w (r.map (as ++ ·)) w' := by
  induction ms generalizing as w r w' with
  | nil =>
    cases h with
    | done _ h =>
      rw [List.append_nil]
      show JoinsAmid other _ w (.ok (as ++ [])) w'
      rw [List.append_nil]
      exact .finished as h
  | cons m rest ih =>
    obtain ⟨r₁, w₁, hm, hrest⟩ := ComesTo.continueWith h
    apply JoinsAmid.of_comesTo hm
    cases r₁ with
    | error e =>
      cases hrest with
      | done _ hafter =>
        apply JoinsAmid.failedMiddle _ (ReflTransGen.mono (fun _ _ => .inl) _ _ hafter)
        intro m hm e
        obtain ⟨a, _, rfl⟩ := List.mem_map.1 hm
        nofun
    | ok a =>
      obtain ⟨r₂, w₂, hothers, hall⟩ := ComesTo.continueWith hrest
      have hjoins := ih (as ++ [a]) hothers
      rw [List.map_append, List.append_assoc] at hjoins
      cases r₂ with
      | error e =>
        cases hall with
        | done _ hafter => exact hjoins.followed hafter
      | ok as' =>
        cases hall with
        | done _ hafter =>
          have hjoins := hjoins.followed hafter
          rw [Except.map, List.append_assoc] at hjoins
          exact hjoins

theorem joinsAllAmid_inTurn :
    JoinsAllAmid other (inTurn : {α : Type} → List (Act ω α) → Act ω (List α)) := by
  intro α ms w w' r h
  have hjoins := joinsAmid_inTurn [] h
  cases r with
  | error e => exact hjoins
  | ok as => exact hjoins

theorem eq_map_of_results? {ms : List (Act ω α)} {as : List α} (h : results? ms = some as) :
    ms = as.map fun a => .done (.ok a) := by
  induction ms generalizing as with
  | nil =>
    cases h
    rfl
  | cons m rest ih =>
    match m with
    | .done (.ok a) =>
      obtain ⟨as, has, rfl⟩ := Option.map_eq_some_iff.1 h
      rw [ih has]
      rfl
    | .done (.error e) => cases h
    | .step change next => cases h
    | .wait ready giveUp next => cases h

theorem joinsAllAmid_inPasses (fuel : Nat) :
    JoinsAllAmid other (fun {α} (ms : List (Act ω α)) => inPasses fuel ms) := by
  induction fuel with
  | zero => exact joinsAllAmid_inTurn
  | succ fuel ih =>
    intro α ms w w' r h
    show JoinsAmid other ([] ++ ms) w r w'
    refine JoinsAmid.of_pass nofun ?_ h
    intro ms w h
    split at h
    · next as has =>
      cases h with
      | done _ hothers =>
        rw [eq_map_of_results? has]
        exact .finished as hothers
    · cases h with
      | wait _ _ _ hothers _ hnext => exact .amid hothers (ih ms _ w' r hnext)

end ListKeeper.Act
