import ListKeeper.Error

/-!
This module contains actions: what reads and changes a state and either gives a result or fails.
The changes made before a failure stay. An action may have to wait for others to change the state,
so actions can be run alone or up to where they wait.
-/

namespace ListKeeper

inductive Act (ω α : Type) : Type where
  | done (outcome : Except Error α)
  | step (change : ω → ω) (next : ω → Act ω α)
  /-- Let others go on, and wait until the state is ready. If the action is given up instead, the
  state is changed. -/
  | wait (ready : ω → Bool) (giveUp : ω → ω) (next : Act ω α)

namespace Act

def pure (a : α) : Act ω α :=
  .done (.ok a)

def fail (e : Error) : Act ω α :=
  .done (.error e)

def continueWith (m : Act ω α) (f : Except Error α → Act ω β) : Act ω β :=
  match m with
  | .done outcome => f outcome
  | .step change next => .step change fun w => (next w).continueWith f
  | .wait ready giveUp next => .wait ready giveUp (next.continueWith f)

def bind (m : Act ω α) (f : α → Act ω β) : Act ω β :=
  m.continueWith fun
    | .ok a => f a
    | .error e => fail e

instance : Monad (Act ω) where
  pure := pure
  bind := bind

def outcome (m : Act ω α) : Act ω (Except Error α) :=
  m.continueWith fun outcome => pure outcome

def ofExcept (outcome : Except Error α) : Act ω α :=
  .done outcome

def atomic (f : ω → Except Error α × ω) : Act ω α :=
  .step (fun w => (f w).2) fun w => .done (f w).1

def get : Act ω ω :=
  .step id pure

def modify (f : ω → ω) : Act ω Unit :=
  .step f fun _ => pure ()

def await (ready : ω → Bool) (giveUp : ω → ω) : Act ω Unit :=
  .wait ready giveUp (pure ())

def each (f : α → Act ω Unit) : List α → Act ω Unit
  | [] => pure ()
  | a :: rest => bind (f a) fun _ => each f rest

def within (part : ν → ω) (lift : (ω → ω) → ν → ν) : Act ω α → Act ν α
  | .done outcome => .done outcome
  | .step change next => .step (lift change) fun v => within part lift (next (part v))
  | .wait ready giveUp next =>
    .wait (fun v => ready (part v)) (lift giveUp) (within part lift next)

/--
Run an action alone. What it waits for is taken to have come about.
-/
def run : Act ω α → ω → Except Error α × ω
  | .done outcome, w => (outcome, w)
  | .step change next, w => (next w).run (change w)
  | .wait _ _ next, w => next.run w

def poll : Act ω α → ω → Act ω α × ω
  | .done outcome, w => (.done outcome, w)
  | .step change next, w => (next w).poll (change w)
  | .wait ready giveUp next, w => (.wait ready giveUp next, w)

def isReady : Act ω α → ω → Bool
  | .wait ready _ _, w => ready w
  | _, _ => false

def recheck : Act ω α → Act ω α
  | .wait ready giveUp next => .step id fun w => if ready w then next else .wait ready giveUp next
  | m => m

def abandon : Act ω α → ω → ω
  | .wait _ giveUp _, w => giveUp w
  | _, w => w

def upToWait (m : Act ω α) (f : Act ω α → Act ω β) : Act ω β :=
  match m with
  | .done outcome => f (.done outcome)
  | .step change next => .step change fun w => (next w).upToWait f
  | .wait ready giveUp next => f (.wait ready giveUp next)

def inTurn : List (Act ω α) → Act ω (List α)
  | [] => pure []
  | m :: rest => bind m fun a => bind (inTurn rest) fun as => pure (a :: as)

section Run

variable (w : ω)

@[simp]
theorem run_pure (a : α) : (Pure.pure a : Act ω α).run w = (.ok a, w) := rfl

@[simp]
theorem run_fail (e : Error) : (fail e : Act ω α).run w = (.error e, w) := rfl

@[simp]
theorem run_ofExcept (r : Except Error α) : (ofExcept r : Act ω α).run w = (r, w) := rfl

@[simp]
theorem run_atomic (f : ω → Except Error α × ω) : (atomic f).run w = f w := rfl

@[simp]
theorem run_get : (get : Act ω ω).run w = (.ok w, w) := rfl

@[simp]
theorem run_modify (f : ω → ω) : (modify f).run w = (.ok (), f w) := rfl

@[simp]
theorem run_await (ready : ω → Bool) (giveUp : ω → ω) :
    (await ready giveUp).run w = (.ok (), w) := rfl

theorem run_continueWith (m : Act ω α) (f : Except Error α → Act ω β) :
    (m.continueWith f).run w = (f (m.run w).1).run (m.run w).2 := by
  induction m generalizing w with
  | done outcome => rfl
  | step change next ih => exact ih w (change w)
  | wait ready giveUp next ih => exact ih w

@[simp]
theorem run_bind (m : Act ω α) (f : α → Act ω β) :
    (m >>= f).run w =
      match m.run w with
      | (.ok a, w) => (f a).run w
      | (.error e, w) => (.error e, w) := by
  have h := run_continueWith w m fun
    | .ok a => f a
    | .error e => fail e
  simp only [Bind.bind, bind, h]
  rcases m.run w with ⟨_ | _, _⟩ <;> rfl

theorem run_inTurn_cons (m : Act ω α) (rest : List (Act ω α)) :
    (inTurn (m :: rest)).run w =
      match m.run w with
      | (.ok a, w) =>
        match (inTurn rest).run w with
        | (.ok as, w) => (.ok (a :: as), w)
        | (.error e, w) => (.error e, w)
      | (.error e, w) => (.error e, w) := by
  have h := run_bind w m fun a => bind (inTurn rest) fun as => pure (a :: as)
  have h' := fun a w => run_bind w (inTurn rest) fun as => pure (a :: as)
  simp only [Bind.bind] at h h'
  simp only [inTurn, h, h']
  rcases m.run w with ⟨e | a, w⟩
  · rfl
  · dsimp only
    rcases (inTurn rest).run w with ⟨e | as, w⟩ <;> rfl

@[simp]
theorem run_outcome (m : Act ω α) : m.outcome.run w = (.ok (m.run w).1, (m.run w).2) :=
  run_continueWith w m _

end Run

def Prompt : Act ω α → Prop
  | .done _ => True
  | .step _ next => ∀ w, (next w).Prompt
  | .wait .. => False

theorem Prompt.continueWith {m : Act ω α} {f : Except Error α → Act ω β} (hm : m.Prompt)
    (hf : ∀ r, (f r).Prompt) : (m.continueWith f).Prompt := by
  induction m with
  | done outcome => exact hf outcome
  | step change next ih => exact fun w => ih w (hm w)
  | wait => exact hm.elim

theorem Prompt.bind {m : Act ω α} {f : α → Act ω β} (hm : m.Prompt) (hf : ∀ a, (f a).Prompt) :
    (m.bind f).Prompt := by
  refine hm.continueWith fun r => ?_
  cases r with
  | ok a => exact hf a
  | error e => trivial

theorem Prompt.inTurn {ms : List (Act ω α)} (hms : ∀ m ∈ ms, m.Prompt) : (inTurn ms).Prompt := by
  induction ms with
  | nil => trivial
  | cons m rest ih =>
    have hrest := ih fun m' h => hms m' (by simp [h])
    exact (hms m (by simp)).bind fun _ => hrest.bind fun _ => trivial

theorem Prompt.abandon_eq {m : Act ω α} (hm : m.Prompt) (w : ω) : m.abandon w = w := by
  cases m with
  | wait => exact hm.elim
  | _ => rfl

theorem Prompt.recheck_eq {m : Act ω α} (hm : m.Prompt) : m.recheck = m := by
  cases m with
  | wait => exact hm.elim
  | _ => rfl

theorem Prompt.run_upToWait {m : Act ω α} (hm : m.Prompt) (f : Act ω α → Act ω β) (w : ω) :
    (m.upToWait f).run w = (f (.done (m.run w).1)).run (m.run w).2 := by
  induction m generalizing w with
  | done outcome => rfl
  | step change next ih => exact ih w (hm w) (change w)
  | wait => exact hm.elim

theorem Prompt.poll_eq {m : Act ω α} (hm : m.Prompt) (w : ω) :
    m.poll w = (.done (m.run w).1, (m.run w).2) := by
  induction m generalizing w with
  | done outcome => rfl
  | step change next ih => exact ih w (hm w) (change w)
  | wait => exact hm.elim

end Act
end ListKeeper
