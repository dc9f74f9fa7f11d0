import ListKeeper.Keeper.Mutation
import ListKeeper.Proofs.Storage.Image
import ListKeeper.Proofs.World

/-!
This module contains storage whose calls fail at will, with or without having taken their effect,
and rules for actions that call it in a known order, up to the first failure.
-/

namespace ListKeeper

inductive Fate where
  | served
  | refused (e : Error)
  | lost (e : Error)
deriving DecidableEq, Repr

/--
Storage with the fates of the calls to come. When no fate is left, calls are served.
-/
structure FaultyStore where
  image : Image
  fates : List Fate
deriving DecidableEq, Repr

namespace Fate

def effects : Fate → Nat
  | .served | .lost _ => 1
  | .refused _ => 0

def afterServed : Nat → List Fate → Option (List Fate)
  | 0, fates => some fates
  | _ + 1, [] => some []
  | n + 1, .served :: rest => afterServed n rest
  | _ + 1, _ :: _ => none

variable {fates rest : List Fate} {fate : Fate}

theorem effects_le_one (fate : Fate) : fate.effects ≤ 1 := by
  cases fate with
  | served => exact Nat.le_refl 1
  | refused _ => exact Nat.zero_le 1
  | lost _ => exact Nat.le_refl 1

theorem afterServed_add (m n : Nat) (fates : List Fate) :
    afterServed (m + n) fates = (afterServed m fates).bind (afterServed n) := by
  induction m generalizing fates with
  | zero =>
    rw [Nat.zero_add]
    rfl
  | succ m ih =>
    rw [Nat.succ_add]
    cases fates with
    | nil =>
      cases n with
      | zero => rfl
      | succ _ => rfl
    | cons fate rest =>
      cases fate with
      | served => exact ih rest
      | refused _ => rfl
      | lost _ => rfl

theorem mem_of_afterServed {n : Nat} (h : afterServed n fates = some (fate :: rest)) :
    fate ∈ fates := by
  fun_induction afterServed n fates with
  | case1 =>
    cases h
    exact List.mem_cons_self
  | case2 => cases h
  | case3 _ _ ih => exact List.mem_cons_of_mem _ (ih h)
  | case4 => cases h

theorem afterServed_replicate (hfate : fate ≠ .served) (m n : Nat) :
    afterServed m (List.replicate n .served ++ fate :: rest) =
      if m ≤ n then some (List.replicate (n - m) .served ++ fate :: rest) else none := by
  induction m generalizing n with
  | zero => rfl
  | succ m ih =>
    cases n with
    | zero =>
      cases fate with
      | served => exact absurd rfl hfate
      | refused _ => rfl
      | lost _ => rfl
    | succ n =>
      rw [List.replicate_succ, List.cons_append, Nat.add_sub_add_right]
      simp only [Nat.add_le_add_iff_right]
      exact ih n

theorem eq_of_afterServed_replicate {fate' : Fate} {rest' : List Fate} (hfate : fate ≠ .served)
    {m n : Nat} (hfate' : fate' ≠ .served)
    (h : afterServed m (List.replicate n .served ++ fate :: rest) = some (fate' :: rest')) :
    m = n ∧ fate' = fate ∧ rest' = rest := by
  rw [afterServed_replicate hfate] at h
  split at h
  · cases hleft : n - m with
    | zero =>
      rw [hleft] at h
      cases h
      exact ⟨by omega, rfl, rfl⟩
    | succ _ =>
      rw [hleft] at h
      cases h
      exact absurd rfl hfate'
  · cases h

end Fate

namespace FaultyStore

def answer (request : Request α) (s : FaultyStore) : Except Error α × FaultyStore :=
  match s.fates with
  | [] => (.ok (s.image.serve request).1, ⟨(s.image.serve request).2, []⟩)
  | .served :: rest => (.ok (s.image.serve request).1, ⟨(s.image.serve request).2, rest⟩)
  | .refused e :: rest => (.error e, ⟨s.image, rest⟩)
  | .lost e :: rest => (.error e, ⟨(s.image.serve request).2, rest⟩)

def gateway : Gateway FaultyStore :=
  .ofFunction answer

def LosesNothing (s : FaultyStore) : Prop :=
  ∀ e, .lost e ∉ s.fates

variable {s s' : FaultyStore}

theorem answer_of_ok {request : Request α} {a : α} (h : s.answer request = (.ok a, s')) :
    a = (s.image.serve request).1 ∧ s'.image = (s.image.serve request).2 ∧
      Fate.afterServed 1 s.fates = some s'.fates := by
  unfold answer at h
  split at h
  · next hfates =>
    cases h
    exact ⟨rfl, rfl, by rw [hfates]; rfl⟩
  · next hfates =>
    cases h
    exact ⟨rfl, rfl, by rw [hfates]; rfl⟩
  · cases h
  · cases h

theorem answer_of_error {request : Request α} {e : Error}
    (h : s.answer request = (.error e, s')) :
    ∃ fate, fate ≠ .served ∧ s.fates = fate :: s'.fates ∧
      s'.image = if fate.effects = 0 then s.image else (s.image.serve request).2 := by
  unfold answer at h
  split at h
  · cases h
  · cases h
  · next hfates =>
    cases h
    exact ⟨.refused e, Fate.noConfusion, hfates, rfl⟩
  · next hfates =>
    cases h
    exact ⟨.lost e, Fate.noConfusion, hfates, rfl⟩

theorem LosesNothing.effects_eq_zero (hs : s.LosesNothing) {fate : Fate} (hmem : fate ∈ s.fates)
    (hfate : fate ≠ .served) : fate.effects = 0 := by
  cases fate with
  | served => exact absurd rfl hfate
  | refused _ => rfl
  | lost e => exact absurd hmem (hs e)

end FaultyStore

def World.image (w : World FaultyStore) : Image := w.storage.image

def Keeper.faulty (config : KeeperConfig) : Keeper FaultyStore :=
  ⟨config, FaultyStore.gateway.within⟩

def changes (steps : List (Option Write)) : List Write :=
  steps.filterMap id

section Changes

variable (steps steps' : List (Option Write)) (writes : List Write)

theorem changes_append : changes (steps ++ steps') = changes steps ++ changes steps' :=
  List.filterMap_append

@[simp]
theorem changes_map_some : changes (writes.map some) = writes := by
  unfold changes
  rw [List.filterMap_map]
  exact List.filterMap_some

@[simp]
theorem changes_map_none (as : List α) : changes (as.map fun _ => none) = [] := by
  unfold changes
  rw [List.filterMap_map]
  exact List.filterMap_eq_nil_iff.2 fun _ _ => rfl

theorem changes_take_prefix (n : Nat) : changes (steps.take n) <+: changes steps :=
  (List.take_prefix n steps).filterMap id

end Changes

namespace World

variable {w w' w'' : World FaultyStore} {steps steps' : List (Option Write)}

structure Took (steps : List (Option Write)) (w w' : World FaultyStore) : Prop where
  tally : w'.tally = w.tally
  fates : Fate.afterServed steps.length w.storage.fates = some w'.storage.fates
  image : w'.image = w.image.writeAll (changes steps)

structure Stopped (steps : List (Option Write)) (n : Nat) (fate : Fate)
    (w w' : World FaultyStore) : Prop where
  tally : w'.tally = w.tally
  lt_length : n < steps.length
  failed : fate ≠ .served
  fates : Fate.afterServed n w.storage.fates = some (fate :: w'.storage.fates)
  image : w'.image = w.image.writeAll (changes (steps.take (n + fate.effects)))

theorem Took.refl (w : World FaultyStore) : Took [] w w := ⟨rfl, rfl, rfl⟩

theorem Took.trans (h : Took steps w w') (h' : Took steps' w' w'') :
    Took (steps ++ steps') w w'' where
  tally := h'.tally.trans h.tally
  fates := by
    rw [List.length_append, Fate.afterServed_add, h.fates]
    exact h'.fates
  image := by rw [h'.image, h.image, changes_append, Image.writeAll_append]

theorem Took.stopped {n : Nat} {fate : Fate} (h : Took steps w w')
    (h' : Stopped steps' n fate w' w'') :
    Stopped (steps ++ steps') (steps.length + n) fate w w'' where
  tally := h'.tally.trans h.tally
  lt_length := by
    rw [List.length_append]
    exact Nat.add_lt_add_left h'.lt_length _
  failed := h'.failed
  fates := by
    rw [Fate.afterServed_add, h.fates]
    exact h'.fates
  image := by
    rw [h'.image, h.image, Nat.add_assoc, List.take_length_add_append, changes_append,
      Image.writeAll_append]

theorem Stopped.append {n : Nat} {fate : Fate} (h : Stopped steps n fate w w')
    (steps' : List (Option Write)) : Stopped (steps ++ steps') n fate w w' where
  tally := h.tally
  lt_length := by
    rw [List.length_append]
    exact Nat.lt_add_right _ h.lt_length
  failed := h.failed
  fates := h.fates
  image := by
    have hle : n + fate.effects ≤ steps.length := by
      have := fate.effects_le_one
      have := h.lt_length
      omega
    rw [h.image, List.take_append_of_le_length hle]

theorem Stopped.fates_ne_nil {n : Nat} {fate : Fate} (h : Stopped steps n fate w w') :
    w.storage.fates ≠ [] :=
  List.ne_nil_of_mem (Fate.mem_of_afterServed h.fates)

theorem Stopped.image_eq {n : Nat} {fate : Fate} (h : Stopped steps n fate w w')
    (hsteps : changes steps = []) : w'.image = w.image := by
  have hprefix := changes_take_prefix steps (n + fate.effects)
  rw [hsteps] at hprefix
  rw [h.image, List.prefix_nil.1 hprefix]
  rfl

end World

namespace Act

variable {w : World FaultyStore} {steps steps' : List (Option Write)}

/--
From the state `w`, the action takes the given steps, one after the other, up to the first one that
fails. It fails only if a step does.
-/
def Takes (steps : List (Option Write)) (m : Act (World FaultyStore) α)
    (w : World FaultyStore) : Prop :=
  m.Ends w (fun _ w' => w.Took steps w') (fun _ w' => ∃ n fate, w.Stopped steps n fate w')

theorem takes_pure (a : α) : Takes [] (Pure.pure a : Act (World FaultyStore) α) w :=
  World.Took.refl w

theorem takes_publish (edit : Draft → Draft) :
    Takes [] (Act.publish edit : Act (World FaultyStore) Snapshot) w :=
  ⟨rfl, rfl, rfl⟩

theorem Takes.bind {m : Act (World FaultyStore) α} {f : α → Act (World FaultyStore) β}
    (hm : Takes steps m w) (hf : ∀ a w', m.run w = (.ok a, w') → Takes steps' (f a) w') :
    Takes (steps ++ steps') (m >>= f) w := by
  apply Ends.bind (p := fun a w' => w.Took steps w' ∧ m.run w = (.ok a, w'))
  · apply (hm.and (ends_run m w)).mono
    · intro _ w' h
      exact h
    · rintro _ w' ⟨⟨n, fate, h⟩, _⟩
      exact ⟨n, fate, h.append steps'⟩
  · rintro a w' ⟨h, hrun⟩
    apply (hf a w' hrun).mono
    · intro _ w'' h'
      exact h.trans h'
    · rintro _ w'' ⟨n, fate, h'⟩
      exact ⟨steps.length + n, fate, h.stopped h'⟩

theorem Takes.served {m : Act (World FaultyStore) α} (hm : Takes steps m w)
    (hfates : w.storage.fates = []) :
    m.Ends w (fun _ w' => w.Took steps w') (fun _ _ => False) := by
  apply hm.mono
  · intro _ w' h
    exact h
  · rintro _ w' ⟨n, fate, h⟩
    exact h.fates_ne_nil hfates

theorem Takes.each {f : α → Act (World FaultyStore) Unit} {steps : α → List (Option Write)}
    (hf : ∀ a w, Takes (steps a) (f a) w) (as : List α) :
    Takes (as.flatMap steps) (Act.each f as) w := by
  induction as generalizing w with
  | nil => exact takes_pure ()
  | cons a rest ih =>
    rw [List.flatMap_cons]
    exact (hf a w).bind fun _ _ _ => ih

theorem Takes.finish {m : Act (World FaultyStore) α} {f : α → Act (World FaultyStore) β}
    (hm : Takes steps m w) (hf : ∀ a w', m.run w = (.ok a, w') → Takes [] (f a) w') :
    Takes steps (m >>= f) w := by
  rw [← List.append_nil steps]
  exact hm.bind hf

theorem Takes.bind_reads {m : Act (World FaultyStore) α} {f : α → Act (World FaultyStore) β}
    (hm : Takes steps m w) (hf : ∀ a w', ∃ reads, changes reads = [] ∧ Takes reads (f a) w') :
    ∃ steps', changes steps' = changes steps ∧ Takes steps' (m >>= f) w := by
  rcases hrun : m.run w with ⟨e | a, w'⟩
  · refine ⟨steps, rfl, hm.finish ?_⟩
    intro a w' hok
    rw [hrun] at hok
    cases hok
  · obtain ⟨reads, hreads, hf⟩ := hf a w'
    refine ⟨steps ++ reads, ?_, hm.bind ?_⟩
    · rw [changes_append, hreads, List.append_nil]
    · intro a' w'' hok
      rw [hrun] at hok
      cases hok
      exact hf

theorem takes_inTurn {f : α → Act (World FaultyStore) β} (hf : ∀ a w, Takes [none] (f a) w)
    (as : List α) : Takes (as.map fun _ => none) (Act.inTurn (as.map f)) w := by
  induction as generalizing w with
  | nil => exact takes_pure []
  | cons a rest ih =>
    show Takes ([none] ++ rest.map fun _ => none) _ w
    apply (hf a w).bind
    intro b w' _
    exact ih.finish fun _ _ _ => takes_pure _

end Act

namespace Keeper

open Act

variable (config : KeeperConfig) {w : World FaultyStore}

theorem run_ask (request : Request α) :
    ((faulty config).ask request).run w = ((w.storage.answer request).1,
      { w with storage := (w.storage.answer request).2 }) :=
  run_ofStorage _ w

theorem ends_ask (request : Request α) :
    ((faulty config).ask request).Ends w
      (fun a w' => w'.tally = w.tally ∧ a = (w.image.serve request).1 ∧
        w'.image = (w.image.serve request).2 ∧
        Fate.afterServed 1 w.storage.fates = some w'.storage.fates)
      (fun _ w' => w'.tally = w.tally ∧ ∃ fate, fate ≠ .served ∧
        w.storage.fates = fate :: w'.storage.fates ∧
        w'.image = if fate.effects = 0 then w.image else (w.image.serve request).2) := by
  unfold Ends
  rw [run_ask]
  rcases hanswer : w.storage.answer request with ⟨e | a, s⟩
  · exact ⟨rfl, FaultyStore.answer_of_error hanswer⟩
  · exact ⟨rfl, FaultyStore.answer_of_ok hanswer⟩

theorem takes_ask {request : Request α} {step : Option Write}
    (hstep : ∀ image : Image, (image.serve request).2 = image.writeAll step.toList) :
    Takes [step] ((faulty config).ask request) w := by
  have hchanges : changes [step] = step.toList := by
    cases step with
    | none => rfl
    | some _ => rfl
  apply (ends_ask config request).mono
  · rintro _ w' ⟨htally, _, himage, hfates⟩
    rw [hstep, ← hchanges] at himage
    exact ⟨htally, hfates, himage⟩
  · rintro _ w' ⟨htally, fate, hfate, hfates, himage⟩
    refine ⟨0, fate, htally, Nat.one_pos, hfate, by rw [hfates]; rfl, ?_⟩
    rw [himage, hstep, ← hchanges]
    cases fate with
    | served => exact absurd rfl hfate
    | refused _ => rfl
    | lost _ => rfl

theorem takes_change (change : Write) :
    Takes [some change] ((faulty config).ask change.request) w :=
  takes_ask config fun _ => rfl

theorem takes_read {request : Request α} (h : ∀ image : Image, (image.serve request).2 = image) :
    Takes [none] ((faulty config).ask request) w :=
  takes_ask config h

theorem takes_verify {verified : Option (Change × String)}
    (hconfirmed : ∀ change id, verified = some (change, id) → w.image.verify change id = true) :
    Takes (if config.verifyWrites && verified.isSome then [none] else [])
      ((faulty config).verify verified) w := by
  cases verified with
  | none =>
    rw [Option.isSome_none, Bool.and_false]
    exact takes_pure ()
  | some asked =>
    obtain ⟨change, id⟩ := asked
    rw [Option.isSome_some, Bool.and_true]
    unfold verify verifyWrite
    rw [show (faulty config).config = config from rfl]
    split
    · apply (takes_read config fun _ => rfl).finish
      intro confirmed w' hrun
      have hanswer := ((ends_ask config (.verify change id)).of_ok hrun).2.1
      rw [show confirmed = w.image.verify change id from hanswer, hconfirmed change id rfl]
      exact takes_pure ()
    · exact takes_pure ()

theorem takes_each_write (changes : List Write) :
    Takes (changes.map some) (Act.each (faulty config).write changes) w := by
  rw [List.map_eq_flatMap]
  exact Takes.each (fun change _ => takes_change config change) changes

structure Written (changes : List Write) (r : Except Error Unit × Nat)
    (w w' : World FaultyStore) : Prop where
  all : r.1 = .ok () → w.Took (changes.map some) w' ∧ r.2 = changes.length
  some : ∀ e, r.1 = .error e → ∃ fate, w.Stopped (changes.map some) r.2 fate w'

theorem ends_writeAll (changes : List Write) :
    ((faulty config).writeAll changes).Ends w (fun r w' => Written changes r w w')
      (fun _ _ => False) := by
  induction changes generalizing w with
  | nil =>
    refine ⟨fun _ => ⟨World.Took.refl w, rfl⟩, ?_⟩
    rintro _ ⟨⟩
  | cons change rest ih =>
    unfold writeAll
    apply Ends.bindOutcome (takes_change config change)
    · intro _ w' hfirst
      apply Ends.bind ih
      intro r w'' hrest
      refine ⟨fun h => ⟨hfirst.trans (hrest.all h).1, congrArg (· + 1) (hrest.all h).2⟩, ?_⟩
      intro e h
      obtain ⟨fate, hstopped⟩ := hrest.some e h
      refine ⟨fate, ?_⟩
      rw [Nat.add_comm]
      exact hfirst.stopped hstopped
    · rintro e w' ⟨n, fate, hstopped⟩
      refine ⟨nofun, ?_⟩
      intro _ _
      have hn : n = 0 := Nat.lt_one_iff.1 hstopped.lt_length
      subst hn
      exact ⟨fate, hstopped.append _⟩

theorem takes_fetchAll :
    ∃ steps, changes steps = [] ∧ Takes steps (faulty config).fetchAll w := by
  refine ⟨none :: w.image.allLists.map fun _ => none, changes_map_none _, ?_⟩
  unfold fetchAll
  show Takes ([none] ++ w.image.allLists.map fun _ => none) _ w
  apply (takes_read config fun _ => rfl).bind
  intro lists w' hrun
  have hlists : lists = w.image.allLists := ((ends_ask config .allLists).of_ok hrun).2.1
  rw [← hlists]
  apply takes_inTurn
  intro list w
  exact (takes_read config fun _ => rfl).finish fun _ _ _ => takes_pure _

theorem takes_publishShowing {shown : Showing} (h : shown.outcome w.snapshot = .ok ()) :
    Takes [] (publishShowing shown : Act (World FaultyStore) Unit) w := by
  unfold Takes Ends publishShowing
  rw [run_atomic, h]
  exact ⟨rfl, rfl, rfl⟩

end Keeper

theorem Keeper.ends_fetchAll (config : KeeperConfig) (w : World FaultyStore) :
    (faulty config).fetchAll.Ends w (fun lists _ => lists = w.image.loaded) (fun _ _ => True) := by
  unfold fetchAll Image.loaded
  apply Act.Ends.bind (p := fun lists w' => lists = w.image.allLists ∧ w'.image = w.image)
  · apply (ends_ask config .allLists).mono
    · rintro lists w' ⟨_, hlists, himage, _⟩
      exact ⟨hlists, himage⟩
    · intro _ _ _
      trivial
  rintro lists w' ⟨hlists, himage⟩
  rw [← hlists]
  clear hlists
  -- The content does not change while the items are read, so each list is given its own items.
  show (Act.inTurn _).Ends _ _ _
  induction lists generalizing w' with
  | nil => rfl
  | cons list rest ih =>
    apply Act.Ends.bind (p := fun a w'' =>
      a = list.withItems (w.image.itemsOf list.id) ∧ w''.image = w.image)
    · apply Act.Ends.bind (p := fun items w'' =>
        items = w.image.itemsOf list.id ∧ w''.image = w.image)
      · apply (ends_ask config (.itemsOf list.id)).mono
        · rintro items w'' ⟨_, hitems, himage', _⟩
          rw [himage] at hitems himage'
          exact ⟨hitems, himage'⟩
        · intro _ _ _
          trivial
      · rintro items w'' ⟨hitems, himage'⟩
        rw [hitems]
        exact ⟨rfl, himage'⟩
    · rintro a w'' ⟨ha, himage'⟩
      apply Act.Ends.bind (ih w'' himage')
      rintro as _ has
      rw [ha, has]
      rfl

theorem Keeper.ends_fetchAll_unchanged (config : KeeperConfig) (w : World FaultyStore) :
    (faulty config).fetchAll.Ends w (fun _ w' => w'.image = w.image)
      (fun _ w' => w'.image = w.image) := by
  obtain ⟨reads, hreads, htakes⟩ := takes_fetchAll config (w := w)
  apply htakes.mono
  · intro _ w' h
    rw [h.image, hreads]
    rfl
  · rintro _ w' ⟨n, fate, h⟩
    exact h.image_eq hreads

end ListKeeper
