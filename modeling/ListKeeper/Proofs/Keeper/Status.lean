import ListKeeper.Proofs.Keeper.Publishing

/-!
This module contains what snapshots tell about the last call: the message of its failure or none,
and whether lists are being loaded.
-/

namespace ListKeeper

namespace Act

def passes : Act ω α → ω → List ω
  | .done _, _ => []
  | .step change next, w => w :: (next w).passes (change w)
  | .wait _ _ next, w => next.passes w

theorem Only.passes {r : ω → ω → Prop} {p : ω → Prop} {m : Act ω α} (hm : m.Only r)
    (hr : ∀ w w', r w w' → p w → p w') {w : ω} (hw : p w) : ∀ v ∈ m.passes w, p v := by
  induction m generalizing w with
  | done outcome => exact fun _ hv => nomatch hv
  | step change next ih =>
    intro v hv
    rcases List.mem_cons.1 hv with rfl | hv
    · exact hw
    · exact ih w (hm.2 w) (hr _ _ (hm.1 w) hw) v hv
  | wait ready giveUp next ih => exact ih hm.2 hw

end Act

namespace Keeper

section Errors

/-!
Only the last publish of a call counts for the message, so nothing has to be known about storage.
-/

variable {k : Keeper σ} {w w' : World σ}

theorem error_publishShowing {shown : Showing}
    (h : (publishShowing shown).run w = (.ok (), w')) : w'.snapshot.error = none := by
  cases shown with
  | edit edit =>
    cases h
    rfl
  | into listId f =>
    -- The position is looked up in the snapshot whose draft is changed.
    have hfound : (w.snapshot.draft.modify listId f).1 = (w.snapshot.positionOf? listId).isSome := by
      rw [Draft.found_modify]
      exact any_eq_isSome_findIdx?
    unfold publishShowing at h
    rw [Act.run_atomic] at h
    obtain ⟨houtcome, rfl⟩ := Prod.mk.inj h
    cases hposition : (w.snapshot.positionOf? listId).isSome with
    | true =>
      show ((Showing.into listId f).draft w.snapshot.draft).error = none
      rw [hposition] at hfound
      simp only [Showing.draft, hfound, ↓reduceIte]
    | false => simp [Showing.outcome, hposition] at houtcome

theorem error_forward {plan : Plan} {made : Nat}
    (h : (k.forward plan).run w = (.ok (.ok (), made), w')) : w'.snapshot.error = none := by
  unfold forward at h
  obtain ⟨outcome, made', w₁, hwritten⟩ := run_writeAll k plan.changes w
  rw [Act.run_bind, hwritten] at h
  rcases outcome with e | _
  · cases h
  · dsimp only at h
    rw [Act.run_bind, Act.run_outcome, Act.run_bind] at h
    rcases hverified : (k.verify plan.verified).run w₁ with ⟨e | _, w₂⟩
    · rw [hverified] at h
      cases h
    · rw [hverified] at h
      dsimp only at h
      rcases hshown : (publishShowing plan.shown).run w₂ with ⟨e | _, w₃⟩
      · rw [hshown] at h
        cases h
      · rw [hshown] at h
        cases h
        exact error_publishShowing hshown

theorem error_carryOut (k : Keeper σ) (m : Mutation) (w : World σ) :
    ((k.carryOut m).run w).2.snapshot.error =
      match ((k.carryOut m).run w).1 with
      | .ok _ => none
      | .error e => some e.userMessage := by
  have hproceeds := proceeds_carryOut k m w
  generalize ((k.carryOut m).run w).1 = result at hproceeds
  generalize ((k.carryOut m).run w).2 = w' at hproceeds
  cases hproceeds with
  | refused hplan => rfl
  | committed hplan hforward =>
    have herror := error_forward hforward
    rw [World.foldl_notice]
    exact herror
  | rolledBack hplan hforward hundo => rfl

end Errors

end Keeper

/--
What a snapshot tells about failures after a call, by its result and by what was told before. Calls
that reach storage tell their own failure or none, and the criteria have nothing to do with it.
-/
def Call.errorAfter (call : Call) (before : Option String) (result : Except Error Reply) :
    Option String :=
  if call.isMutation ∨ call = .loadAll then
    match result with
    | .ok _ => none
    | .error e => some e.userMessage
  else if call = .reset then
    none
  else
    before

namespace Keeper

theorem run_setPeriodText_error {k : Keeper σ} {text : String} {w : World σ} {e : Error}
    (h : ((k.perform (.setPeriodText text)).run w).1 = .error e) :
    (k.perform (.setPeriodText text)).run w = (.error e, w) := by
  simp only [perform, setPeriodText] at h ⊢
  split at h
  · nomatch h
  · next hblank =>
    split at h
    · nomatch h
    · cases h
      rw [if_neg hblank]
      rfl

def concludeLoad : Except Error (List Checklist) → Act (World σ) Reply
  | .ok lists => do
    let snapshot ← Act.publish fun d => { d with lists := lists, loading := false, error := none }
    Act.notice (.listsLoaded lists.length snapshot.version)
    return .version snapshot.version
  | .error e => do
    reportFailure "load_all" e fun d => { d with loading := false }
    Act.fail e

/--
Storage is read under a snapshot that says so: it was published before the first change that the
reading makes, and it is the current one until the last.
-/
structure LoadsOpenly (k : Keeper σ) (w reading : World σ) : Prop where
  loading : reading.snapshot.loading = true
  published : reading.published = w.published ++ [reading.snapshot]
  passes : ∀ v ∈ k.fetchAll.passes reading, v.snapshot = reading.snapshot
  run : (k.perform .loadAll).run w = (k.fetchAll.outcome >>= concludeLoad).run reading

def reading (w : World σ) : World σ :=
  (w.observe (.entered ⟨"orchestrator.load_all", []⟩)).publish fun d => { d with loading := true }

theorem run_loadAll (k : Keeper σ) (w : World σ) :
    (k.perform .loadAll).run w = (k.fetchAll.outcome >>= concludeLoad).run (reading w) := by
  have hload : k.loadAll.run w = (k.fetchAll.outcome >>= fun result => match result with
      | .ok lists => do
        let snapshot ← Act.publish fun d =>
          { d with lists := lists, loading := false, error := none }
        Act.notice (.listsLoaded lists.length snapshot.version)
        return snapshot
      | .error e => do
        reportFailure "load_all" e fun d => { d with loading := false }
        Act.fail e).run (reading w) := rfl
  simp only [perform, Act.run_bind _ k.loadAll, hload, Act.run_bind _ k.fetchAll.outcome,
    Act.run_outcome]
  rcases k.fetchAll.run (reading w) with ⟨e | lists, w'⟩
  · rfl
  · rfl

theorem error_perform (k : Keeper σ) (call : Call) (w : World σ) :
    ((k.perform call).run w).2.snapshot.error =
      call.errorAfter w.snapshot.error ((k.perform call).run w).1 := by
  unfold Call.errorAfter
  by_cases hcall : call.isMutation = true
  · obtain ⟨m, hm⟩ := Call.exists_mutation hcall
    rw [if_pos (.inl hcall), perform_eq_carryOut hm]
    exact error_carryOut k m w
  · cases call with
    | loadAll =>
      rw [if_pos (.inr rfl), run_loadAll, Act.run_bind, Act.run_outcome]
      rcases k.fetchAll.run (reading w) with ⟨e | lists, w'⟩
      · rfl
      · rfl
    | setPeriodText text =>
      rw [if_neg (by simp [Call.isMutation])]
      simp only [perform, setPeriodText]
      split
      · rfl
      · split
        · rfl
        · rfl
    | reset => rfl
    | setQuery query => rfl
    | setTopic topic => rfl
    | setShowCompleted shown => rfl
    | setShowInProgress shown => rfl
    | setPeriod period => rfl
    | setOrder order => rfl
    | resetCriteria => rfl
    | _ => exact absurd rfl hcall

section Loading

variable {k : Keeper σ} (hk : k.gateway.Reserved)
include hk

theorem snapshot_passes_fetchAll (w : World σ) :
    ∀ v ∈ k.fetchAll.passes w, v.snapshot = w.snapshot := by
  apply Act.Only.passes (all_fetchAll (Act.built_only _) (hk fun _ => False).only)
    (p := fun v => v.snapshot = w.snapshot) _ rfl
  intro v v' h hv
  cases h with
  | nothing hboard _ => exact (congrArg Board.snapshot hboard).trans hv
  | edit _ hedit _ _ => exact hedit.elim

theorem loadsOpenly (w : World σ) : k.LoadsOpenly w (reading w) where
  loading := rfl
  published := by
    unfold reading
    rw [World.published_publish, World.published_observe]
    exact congrArg (· ++ _) (List.append_nil _)
  passes := snapshot_passes_fetchAll hk (reading w)
  run := run_loadAll k w

theorem loading_perform {call : Call} {w : World σ} (hw : w.snapshot.loading = false) :
    ((k.perform call).run w).2.snapshot.loading = false := by
  by_cases hcall : call.isMutation = true
  · -- Mutations publish edits that leave the mark of loading alone.
    have honly := only_mutation (hk Draft.Tells) (fun _ h => h) hcall
    apply honly.keeps (p := fun w => w.snapshot.loading = false) _ hw
    intro v v' h hv
    cases h with
    | nothing hboard _ => exact (congrArg (·.snapshot.loading) hboard).trans hv
    | edit edit hedit hboard _ =>
      have hloading : v'.snapshot.loading = (edit v.snapshot.draft).loading :=
        congrArg (·.snapshot.loading) hboard
      rw [hloading, (hedit _).2]
      exact hv
  · cases call with
    | loadAll =>
      rw [run_loadAll, Act.run_bind, Act.run_outcome]
      rcases k.fetchAll.run (reading w) with ⟨e | lists, w'⟩
      · rfl
      · rfl
    | setPeriodText text =>
      simp only [perform, setPeriodText]
      split
      · exact hw
      · split
        · exact hw
        · exact hw
    | reset => rfl
    | setQuery query => exact hw
    | setTopic topic => exact hw
    | setShowCompleted shown => exact hw
    | setShowInProgress shown => exact hw
    | setPeriod period => exact hw
    | setOrder order => exact hw
    | resetCriteria => exact hw
    | _ => exact absurd rfl hcall

theorem loading_run (calls : List Call) {w : World σ} (hw : w.snapshot.loading = false) :
    (k.run calls w).snapshot.loading = false := by
  induction calls generalizing w with
  | nil => exact hw
  | cons call rest ih => exact ih (loading_perform hk hw)

end Loading

/--
What the snapshot tells after a call that was made in the state `w`.
-/
structure TracksOutcome (k : Keeper σ) (w : World σ) (call : Call) : Prop where
  error : ((k.perform call).run w).2.snapshot.error =
    call.errorAfter w.snapshot.error ((k.perform call).run w).1
  idle : ((k.perform call).run w).2.snapshot.loading = false
  refused : ∀ text e, call = .setPeriodText text → ((k.perform call).run w).1 = .error e →
    ((k.perform call).run w).2 = w
  fetching : call = .loadAll → ∃ reading, k.LoadsOpenly w reading

/--
After each call of a run, the snapshot tells the failure of the last call that could fail in
storage, and nothing is being loaded.
-/
theorem perform_tracksOutcome (k : Keeper σ) (hk : k.gateway.Reserved) (now : Timestamp)
    (storage : σ) (calls : List Call) (call : Call) :
    k.TracksOutcome (k.run calls (World.initial now storage)) call where
  error := error_perform k call _
  idle := loading_perform hk (loading_run hk calls rfl)
  refused := by
    rintro text e rfl h
    rw [run_setPeriodText_error h]
  fetching := by
    intro _
    exact ⟨_, loadsOpenly hk _⟩

/--
A list that nobody has is removed, which fails, and then a period is asked for that there is not.
The first failure is still told.
-/
theorem perform_tracksOutcome_refused :
    let k : Keeper Image := ⟨.initial, Image.gateway.within⟩
    let calls := [.createList (Checklist.create "a" "Tea" .epoch), .deleteList "b"]
    let w := k.run calls (World.initial .epoch Image.empty)
    k.gateway.Reserved ∧ w.snapshot.error = some (Error.notFound "list" "b").userMessage ∧
      ((k.perform (.setPeriodText "someday")).run w).1 =
        .error (.invalidConfig "unknown date filter 'someday'") ∧
      k.TracksOutcome w (.setPeriodText "someday") := by
  intro k calls w
  have hk : k.gateway.Reserved := Gateway.reserved_within _
  have htracks := perform_tracksOutcome k hk .epoch Image.empty calls (.setPeriodText "someday")
  exact ⟨hk, by decide +kernel, by decide +kernel, htracks⟩

end Keeper
end ListKeeper
