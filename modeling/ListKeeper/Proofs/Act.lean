import ListKeeper.Act

/-!
This module contains what can be said about actions. About the end of one that runs alone: a
condition on its result and the state after it, and another one on its failure and the state after
that. About one that takes turns with others: a condition on each of its changes. There is a rule for
each way to build actions, so that actions need not be unfolded to be spoken about.
-/

namespace ListKeeper.Act

section Ends

variable {ok : α → ω → Prop} {fail : Error → ω → Prop} {w : ω}

def Ends (m : Act ω α) (w : ω) (ok : α → ω → Prop) (fail : Error → ω → Prop) : Prop :=
  match m.run w with
  | (.ok a, w') => ok a w'
  | (.error e, w') => fail e w'

theorem Ends.of_ok {m : Act ω α} (h : m.Ends w ok fail) {a : α} {w' : ω}
    (hm : m.run w = (.ok a, w')) : ok a w' := by
  unfold Ends at h
  rw [hm] at h
  exact h

theorem Ends.of_error {m : Act ω α} (h : m.Ends w ok fail) {e : Error} {w' : ω}
    (hm : m.run w = (.error e, w')) : fail e w' := by
  unfold Ends at h
  rw [hm] at h
  exact h

theorem ends_run (m : Act ω α) (w : ω) :
    m.Ends w (fun a w' => m.run w = (.ok a, w')) (fun e w' => m.run w = (.error e, w')) := by
  unfold Ends
  split
  · next h => exact h
  · next h => exact h

theorem Ends.mono {ok' : α → ω → Prop} {fail' : Error → ω → Prop} {m : Act ω α}
    (h : m.Ends w ok fail) (hok : ∀ a w', ok a w' → ok' a w')
    (hfail : ∀ e w', fail e w' → fail' e w') : m.Ends w ok' fail' := by
  unfold Ends at h ⊢
  split
  · next hm =>
    rw [hm] at h
    exact hok _ _ h
  · next hm =>
    rw [hm] at h
    exact hfail _ _ h

theorem Ends.and {ok' : α → ω → Prop} {fail' : Error → ω → Prop} {m : Act ω α}
    (h : m.Ends w ok fail) (h' : m.Ends w ok' fail') :
    m.Ends w (fun a w' => ok a w' ∧ ok' a w') (fun e w' => fail e w' ∧ fail' e w') := by
  apply (ends_run m w).mono
  · intro a w' hm
    exact ⟨h.of_ok hm, h'.of_ok hm⟩
  · intro e w' hm
    exact ⟨h.of_error hm, h'.of_error hm⟩

theorem ends_of_run {m : Act ω α} {p : ω → Prop} (h : p (m.run w).2) :
    m.Ends w (fun _ w' => p w') (fun _ w' => p w') := by
  apply (ends_run m w).mono
  · intro a w' hm
    rw [hm] at h
    exact h
  · intro e w' hm
    rw [hm] at h
    exact h

theorem Ends.run_snd {m : Act ω α} {p : ω → Prop}
    (h : m.Ends w (fun _ w' => p w') (fun _ w' => p w')) : p (m.run w).2 := by
  unfold Ends at h
  split at h
  · next hm =>
    rw [hm]
    exact h
  · next hm =>
    rw [hm]
    exact h

theorem Ends.bind {p : α → ω → Prop} {ok : β → ω → Prop} {m : Act ω α} {f : α → Act ω β}
    (hm : m.Ends w p fail) (hf : ∀ a w', p a w' → (f a).Ends w' ok fail) :
    (m >>= f).Ends w ok fail := by
  unfold Ends at hm ⊢
  rw [run_bind]
  split at hm
  · next h =>
    rw [h]
    exact hf _ _ hm
  · next h =>
    rw [h]
    exact hm

theorem Ends.bindOutcome {ok : α → ω → Prop} {ok' : β → ω → Prop} {fail' : Error → ω → Prop}
    {m : Act ω α} {f : Except Error α → Act ω β} (hm : m.Ends w ok fail)
    (hok : ∀ a w', ok a w' → (f (.ok a)).Ends w' ok' fail')
    (hfail : ∀ e w', fail e w' → (f (.error e)).Ends w' ok' fail') :
    (m.outcome >>= f).Ends w ok' fail' := by
  unfold Ends at hm
  unfold Ends
  rw [run_bind, run_outcome]
  split at hm
  · next h =>
    rw [h]
    exact hok _ _ hm
  · next h =>
    rw [h]
    exact hfail _ _ hm

end Ends

theorem run_each_cons (f : α → Act ω Unit) (a : α) (rest : List α) (w : ω) :
    (each f (a :: rest)).run w =
      match (f a).run w with
      | (.ok _, w) => (each f rest).run w
      | (.error e, w) => (.error e, w) := by
  show (f a >>= fun _ => each f rest).run w = _
  rw [run_bind]
  rcases (f a).run w with ⟨e | _, w⟩
  · rfl
  · rfl

section Only

variable {r : ω → ω → Prop} {m : Act ω α}

/--
All changes that an action may make to the state, also when it is given up, are as `r` says.
-/
def Only (r : ω → ω → Prop) : Act ω α → Prop
  | .done _ => True
  | .step change next => (∀ w, r w (change w)) ∧ ∀ w, (next w).Only r
  | .wait _ giveUp next => (∀ w, r w (giveUp w)) ∧ next.Only r

theorem only_atomic {f : ω → Except Error α × ω} (h : ∀ w, r w (f w).2) : (atomic f).Only r :=
  ⟨h, fun _ => trivial⟩

theorem only_modify {f : ω → ω} (h : ∀ w, r w (f w)) : (Act.modify f).Only r :=
  ⟨h, fun _ => trivial⟩

theorem Only.continueWith {f : Except Error α → Act ω β} (hm : m.Only r)
    (hf : ∀ result, (f result).Only r) : (m.continueWith f).Only r := by
  induction m with
  | done outcome => exact hf outcome
  | step change next ih => exact ⟨hm.1, fun w => ih w (hm.2 w)⟩
  | wait ready giveUp next ih => exact ⟨hm.1, ih hm.2⟩

theorem Only.within {part : ν → ω} {lift : (ω → ω) → ν → ν} {r : ν → ν → Prop}
    (h : ∀ change v, r v (lift change v)) : (m.within part lift).Only r := by
  induction m with
  | done outcome => trivial
  | step change next ih => exact ⟨h change, fun v => ih (part v)⟩
  | wait ready giveUp next ih => exact ⟨h giveUp, ih⟩

theorem Only.keeps {p : ω → Prop} (hm : m.Only r) (hr : ∀ w w', r w w' → p w → p w') {w : ω}
    (hw : p w) : p (m.run w).2 := by
  induction m generalizing w with
  | done outcome => exact hw
  | step change next ih => exact ih w (hm.2 w) (hr _ _ (hm.1 w) hw)
  | wait ready giveUp next ih => exact ih hm.2 hw

end Only

structure Built (p : {α : Type} → Act ω α → Prop) : Prop where
  done : ∀ {α : Type} (outcome : Except Error α), p (.done outcome)
  continueWith : ∀ {α β : Type} {m : Act ω α} {f : Except Error α → Act ω β}, p m →
    (∀ outcome, p (f outcome)) → p (m.continueWith f)

namespace Built

variable {p : {α : Type} → Act ω α → Prop} {α β : Type} (hp : Built p)
include hp

theorem pure (a : α) : p (Pure.pure a : Act ω α) := hp.done (.ok a)

theorem fail (e : Error) : p (Act.fail e : Act ω α) := hp.done (.error e)

theorem bind {m : Act ω α} {f : α → Act ω β} (hm : p m) (hf : ∀ a, p (f a)) : p (m >>= f) := by
  apply hp.continueWith hm
  intro outcome
  cases outcome with
  | ok a => exact hf a
  | error e => exact hp.fail e

theorem outcome {m : Act ω α} (hm : p m) : p m.outcome :=
  hp.continueWith hm fun r => hp.pure r

theorem each {f : α → Act ω Unit} (hf : ∀ a, p (f a)) (as : List α) : p (Act.each f as) := by
  induction as with
  | nil => exact hp.pure ()
  | cons a as ih => exact hp.bind (hf a) fun _ => ih

theorem inTurn {ms : List (Act ω α)} (hms : ∀ m ∈ ms, p m) : p (Act.inTurn ms) := by
  induction ms with
  | nil => exact hp.pure []
  | cons m ms ih =>
    have hrest := ih fun m' h => hms m' (by simp [h])
    exact hp.bind (hms m (by simp)) fun _ => hp.bind hrest fun _ => hp.pure _

end Built

theorem built_only (r : ω → ω → Prop) : Built fun m => m.Only r :=
  ⟨fun _ => trivial, Only.continueWith⟩

theorem built_prompt : Built fun (m : Act ω _) => m.Prompt :=
  ⟨fun _ => trivial, Prompt.continueWith⟩

theorem Prompt.within {m : Act ω α} {part : ν → ω} {lift : (ω → ω) → ν → ν} (hm : m.Prompt) :
    (m.within part lift).Prompt := by
  induction m with
  | done outcome => trivial
  | step change next ih => exact fun v => ih (part v) (hm (part v))
  | wait => exact hm.elim

end ListKeeper.Act
