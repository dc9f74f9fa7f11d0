import ListKeeper.Simulation.Join

/-!
This module contains what actions that run side by side may come to when nothing is known about the
order of their steps, only that the results are collected in order and that a failure ends the
whole. Actions that run one after the other are a case of this, and those that run in passes.
-/

namespace ListKeeper.Act

/--
Run side by side, actions come to an outcome and a state. Any of them may take the next step.
-/
inductive Joins {ω α : Type} : List (Act ω α) → ω → Except Error (List α) → ω → Prop
  | finished (as : List α) (w : ω) : Joins (as.map fun a => .done (.ok a)) w (.ok as) w
  | fail (before after : List (Act ω α)) (e : Error) (w : ω) :
    Joins (before ++ .done (.error e) :: after) w (.error e) w
  | step (before after : List (Act ω α)) (change : ω → ω) (next : ω → Act ω α) {w w' : ω}
    {r : Except Error (List α)} (h : Joins (before ++ next w :: after) (change w) r w') :
    Joins (before ++ .step change next :: after) w r w'

def JoinsAll (together : {α : Type} → List (Act ω α) → Act ω (List α)) : Prop :=
  ∀ {α : Type} (ms : List (Act ω α)), (∀ m ∈ ms, m.Prompt) → ∀ w,
    Joins ms w ((together ms).run w).1 ((together ms).run w).2

theorem joins_run {before after : List (Act ω α)} {m : Act ω α} (hm : m.Prompt) {w w' : ω}
    {r : Except Error (List α)}
    (h : Joins (before ++ .done (m.run w).1 :: after) (m.run w).2 r w') :
    Joins (before ++ m :: after) w r w' := by
  induction m generalizing w with
  | done outcome => exact h
  | step change next ih => exact .step before after change next (ih w (hm w) h)
  | wait => exact hm.elim

theorem joins_inTurn_after (as : List α) {ms : List (Act ω α)} (hms : ∀ m ∈ ms, m.Prompt) (w : ω) :
    Joins ((as.map fun a => .done (.ok a)) ++ ms) w (((inTurn ms).run w).1.map (as ++ ·))
      ((inTurn ms).run w).2 := by
  induction ms generalizing as w with
  | nil =>
    show Joins _ w (.ok (as ++ [])) w
    rw [List.append_nil, List.append_nil]
    exact .finished as w
  | cons m rest ih =>
    apply joins_run (hms m List.mem_cons_self)
    rw [run_inTurn_cons]
    rcases m.run w with ⟨e | a, w₁⟩
    · exact .fail _ rest e w₁
    · have hrest := ih (as ++ [a]) (fun m hm => hms m (List.mem_cons_of_mem _ hm)) w₁
      rw [List.map_append, List.append_assoc] at hrest
      rcases hrun : (inTurn rest).run w₁ with ⟨e | as', w₂⟩
      · simp only [hrun] at hrest ⊢
        exact hrest
      · simp only [hrun, Except.map, List.append_assoc] at hrest ⊢
        exact hrest

theorem joinsAll_inTurn : JoinsAll (inTurn : {α : Type} → List (Act ω α) → Act ω (List α)) := by
  intro α ms hms w
  have h := joins_inTurn_after [] hms w
  rcases hrun : (inTurn ms).run w with ⟨e | as, w'⟩
  · rw [hrun] at h
    exact h
  · rw [hrun] at h
    exact h

theorem joinsAll_inPasses (fuel : Nat) :
    JoinsAll (fun {α} (ms : List (Act ω α)) => inPasses (fuel + 1) ms) := by
  intro α ms hms w
  rw [run_inPasses hms]
  exact joinsAll_inTurn ms hms w

end ListKeeper.Act
