import ListKeeper.Keeper.Call
import ListKeeper.Proofs.Filtering
import ListKeeper.Proofs.World
import ListKeeper.Storage.Image

/-!
This module contains that the calls which change the criteria do not get in each other's way: what
is seen after a run of them depends on the last value that each criterion was given, and on nothing
else of the run. Storage has no part in it.
-/

namespace ListKeeper

inductive Criterion where
  | query
  | topic
  | showCompleted
  | showInProgress
  | period
  | order
deriving DecidableEq, Repr

namespace Criterion

abbrev Value : Criterion → Type
  | .query => Option String
  | .topic => Option Topic
  | .showCompleted | .showInProgress => Bool
  | .period => Option Period
  | .order => Order

end Criterion

namespace Criteria

def value (c : Criteria) : (a : Criterion) → a.Value
  | .query => c.query
  | .topic => c.topic
  | .showCompleted => c.showCompleted
  | .showInProgress => c.showInProgress
  | .period => c.period
  | .order => c.order

theorem ext_value {c c' : Criteria} (h : ∀ a, c.value a = c'.value a) : c = c' := by
  obtain ⟨query, topic, showCompleted, showInProgress, period, order⟩ := c
  obtain rfl : query = _ := h .query
  obtain rfl : topic = _ := h .topic
  obtain rfl : showCompleted = _ := h .showCompleted
  obtain rfl : showInProgress = _ := h .showInProgress
  obtain rfl : period = _ := h .period
  obtain rfl : order = _ := h .order
  rfl

end Criteria

namespace Call

def setsCriteria : Call → Bool
  | .setQuery _ | .setTopic _ | .setShowCompleted _ | .setShowInProgress _ => true
  | .setPeriod _ | .setPeriodText _ | .setOrder _ | .resetCriteria => true
  | _ => false

def written? : Call → (a : Criterion) → Option a.Value
  | .setQuery query, .query => some (if Text.isBlankText query then none else some query)
  | .setTopic topic, .topic => some topic
  | .setShowCompleted shown, .showCompleted => some shown
  | .setShowInProgress shown, .showInProgress => some shown
  | .setPeriod period, .period => some period
  | .setPeriodText text, .period =>
    if Text.isBlankText text then some none else (Period.parse? text).map some
  | .setOrder order, .order => some order
  | .resetCriteria, a => some (Criteria.initial.value a)
  | _, _ => none

def isRejected : Call → Bool
  | .setPeriodText text => !Text.isBlankText text && (Period.parse? text).isNone
  | _ => false

end Call

def Criteria.after (c : Criteria) (call : Call) : Criteria where
  query := (call.written? .query).getD c.query
  topic := (call.written? .topic).getD c.topic
  showCompleted := (call.written? .showCompleted).getD c.showCompleted
  showInProgress := (call.written? .showInProgress).getD c.showInProgress
  period := (call.written? .period).getD c.period
  order := (call.written? .order).getD c.order

def Criterion.lastWritten? (a : Criterion) (calls : List Call) : Option a.Value :=
  (calls.filterMap (·.written? a)).getLast?

theorem Criterion.lastWritten?_cons (a : Criterion) (call : Call) (rest : List Call) :
    a.lastWritten? (call :: rest) = (a.lastWritten? rest).or (call.written? a) := by
  unfold lastWritten?
  cases hwritten : call.written? a with
  | none => simp only [List.filterMap_cons, hwritten, Option.or_none]
  | some v =>
    simp only [List.filterMap_cons, hwritten, List.getLast?_cons]
    cases (rest.filterMap (·.written? a)).getLast? with
    | none => rfl
    | some _ => rfl

theorem Criteria.value_after (c : Criteria) (call : Call) (a : Criterion) :
    (c.after call).value a = (call.written? a).getD (c.value a) := by
  cases a <;> rfl

namespace Call

variable {call : Call} {calls : List Call}

theorem isRejected_setPeriodText_iff {text : String} : (setPeriodText text).isRejected = true ↔
    Text.isBlankText text = false ∧ Period.parse? text = none := by
  simp [isRejected]

theorem written?_eq_none_of_isRejected (h : call.isRejected = true) (a : Criterion) :
    call.written? a = none := by
  cases call with
  | setPeriodText text =>
    obtain ⟨hblank, hparse⟩ := isRejected_setPeriodText_iff.1 h
    cases a <;> simp [written?, hblank, hparse]
  | _ => cases h

theorem exists_written?_of_not_isRejected (hcall : call.setsCriteria = true)
    (h : call.isRejected = false) : ∃ a, call.written? a ≠ none := by
  cases call with
  | setQuery _ => exact ⟨.query, Option.some_ne_none _⟩
  | setTopic _ => exact ⟨.topic, Option.some_ne_none _⟩
  | setShowCompleted _ => exact ⟨.showCompleted, Option.some_ne_none _⟩
  | setShowInProgress _ => exact ⟨.showInProgress, Option.some_ne_none _⟩
  | setPeriod _ => exact ⟨.period, Option.some_ne_none _⟩
  | setOrder _ => exact ⟨.order, Option.some_ne_none _⟩
  | resetCriteria => exact ⟨.query, Option.some_ne_none _⟩
  | setPeriodText text =>
    refine ⟨.period, ?_⟩
    cases hblank : Text.isBlankText text with
    | true => simp [written?, hblank]
    | false =>
      have hparse : (Period.parse? text).isSome = true := by simpa [isRejected, hblank] using h
      obtain ⟨period, hperiod⟩ := Option.isSome_iff_exists.1 hparse
      simp [written?, hblank, hperiod]
  | _ => cases hcall

theorem exists_lastWritten?_iff (hcalls : ∀ call ∈ calls, call.setsCriteria = true) :
    (∃ a : Criterion, a.lastWritten? calls ≠ none) ↔ ∃ call ∈ calls, call.isRejected = false := by
  have hlast (a : Criterion) : a.lastWritten? calls ≠ none ↔
      ∃ call ∈ calls, call.written? a ≠ none := by
    simp [Criterion.lastWritten?]
  simp only [hlast]
  constructor
  · rintro ⟨a, call, hcall, hwritten⟩
    refine ⟨call, hcall, ?_⟩
    cases h : call.isRejected with
    | true => exact absurd (written?_eq_none_of_isRejected h a) hwritten
    | false => rfl
  · rintro ⟨call, hcall, haccepted⟩
    obtain ⟨a, hwritten⟩ := exists_written?_of_not_isRejected (hcalls call hcall) haccepted
    exact ⟨a, call, hcall, hwritten⟩

end Call

namespace Keeper

variable (k : Keeper σ) (w : World σ) {call : Call} {calls : List Call}

theorem run_perform_of_isRejected (h : call.isRejected = true) :
    ∃ e, (k.perform call).run w = (.error e, w) := by
  cases call with
  | setPeriodText text =>
    obtain ⟨hblank, hparse⟩ := Call.isRejected_setPeriodText_iff.1 h
    refine ⟨.invalidConfig s!"unknown date filter '{Text.trimmed text}'", ?_⟩
    simp only [perform, setPeriodText, hblank, hparse]
    rfl
  | _ => cases h

theorem run_perform_of_not_isRejected (hcall : call.setsCriteria = true)
    (h : call.isRejected = false) :
    (k.perform call).run w = (.ok (.version (w.snapshot.version + 1)),
      w.publish fun d => { d with criteria := d.criteria.after call }) := by
  cases call with
  | setPeriodText text =>
    cases hblank : Text.isBlankText text with
    | true =>
      simp only [perform, setPeriodText, hblank, Criteria.after, Call.written?]
      rfl
    | false =>
      cases hparse : Period.parse? text with
      | none => simp [Call.isRejected, hblank, hparse] at h
      | some period =>
        simp only [perform, setPeriodText, hblank, hparse, Criteria.after, Call.written?]
        rfl
  | setQuery _ | setTopic _ | setShowCompleted _ | setShowInProgress _ => rfl
  | setPeriod _ | setOrder _ | resetCriteria => rfl
  | _ => cases hcall

theorem isRejected_iff (hcall : call.setsCriteria = true) :
    call.isRejected = true ↔ ∃ e, ((k.perform call).run w).1 = .error e := by
  cases h : call.isRejected with
  | true =>
    obtain ⟨e, hrun⟩ := run_perform_of_isRejected k w h
    rw [hrun]
    exact ⟨fun _ => ⟨e, rfl⟩, fun _ => rfl⟩
  | false =>
    rw [run_perform_of_not_isRejected k w hcall h]
    simp

/--
What a run of calls about the criteria makes of the state: each criterion has the last value that it
was given, the view is that of these criteria if any call was accepted, and besides that only the
version has grown. It makes the same of the state over any other storage, so it does not ask any.
-/
structure SetsCriteria (calls : List Call) (w w' : World σ) : Prop where
  rejected : ∀ call ∈ calls, ∀ (k : Keeper σ) (w : World σ),
    call.isRejected = true ↔ ∃ e, ((k.perform call).run w).1 = .error e
  criteria : ∀ a, w'.snapshot.criteria.value a =
    (a.lastWritten? calls).getD (w.snapshot.criteria.value a)
  view : (∃ call ∈ calls, call.isRejected = false) →
    w'.snapshot.view = w'.snapshot.criteria.view w.board.now w.snapshot.lists
  refused : (∀ call ∈ calls, call.isRejected = true) → w' = w
  lists : w'.snapshot.lists = w.snapshot.lists
  error : w'.snapshot.error = w.snapshot.error
  loading : w'.snapshot.loading = w.snapshot.loading
  version : w'.snapshot.version = w.snapshot.version + calls.countP (!·.isRejected)
  published : ∃ snapshots : List Snapshot,
    w'.journal = w.journal ++ snapshots.map .published ∧
      snapshots.length = calls.countP (!·.isRejected)
  storage : w'.storage = w.storage
  unasked : ∀ k : Keeper σ, k.run calls w = w'

theorem setsCriteria_nil : SetsCriteria [] w w where
  rejected := by simp
  criteria _ := rfl
  view h := by simp at h
  refused _ := rfl
  lists := rfl
  error := rfl
  loading := rfl
  version := rfl
  published := ⟨[], (List.append_nil _).symm, rfl⟩
  storage := rfl
  unasked _ := rfl

variable {w} {w' : World σ}

theorem SetsCriteria.cons_rejected (hcall : call.setsCriteria = true) (h : call.isRejected = true)
    (hrest : SetsCriteria calls w w') : SetsCriteria (call :: calls) w w' where
  rejected := List.forall_mem_cons.2 ⟨fun k w => isRejected_iff k w hcall, hrest.rejected⟩
  criteria a := by
    rw [Criterion.lastWritten?_cons, Call.written?_eq_none_of_isRejected h, Option.or_none]
    exact hrest.criteria a
  view haccepted := hrest.view (by simpa [h] using haccepted)
  refused hall := hrest.refused fun call hcall => hall call (List.mem_cons_of_mem _ hcall)
  lists := hrest.lists
  error := hrest.error
  loading := hrest.loading
  version := by simpa [h] using hrest.version
  published := by simpa [h] using hrest.published
  storage := hrest.storage
  unasked k := by
    obtain ⟨e, hrun⟩ := run_perform_of_isRejected k w h
    rw [run, hrun]
    exact hrest.unasked k

theorem SetsCriteria.cons_accepted (hcall : call.setsCriteria = true) (h : call.isRejected = false)
    (hrest : SetsCriteria calls
      (w.publish fun d => { d with criteria := d.criteria.after call }) w') :
    SetsCriteria (call :: calls) w w' where
  rejected := List.forall_mem_cons.2 ⟨fun k w => isRejected_iff k w hcall, hrest.rejected⟩
  criteria a := by
    have hlast := hrest.criteria a
    rw [Criterion.lastWritten?_cons, Option.getD_or, ← Criteria.value_after]
    exact hlast
  view _ := by
    by_cases hall : ∀ call ∈ calls, call.isRejected = true
    · rw [hrest.refused hall]
      rfl
    · exact hrest.view (by simpa using hall)
  refused hall := by
    rw [hall call List.mem_cons_self] at h
    cases h
  lists := hrest.lists
  error := hrest.error
  loading := hrest.loading
  version := by
    rw [hrest.version, World.version_publish, List.countP_cons, h]
    simp only [Bool.not_false, ↓reduceIte]
    omega
  published := by
    obtain ⟨snapshots, hjournal, hlength⟩ := hrest.published
    refine ⟨_ :: snapshots, hjournal.trans (List.append_assoc _ [_] _), ?_⟩
    rw [List.length_cons, hlength, List.countP_cons, h]
    rfl
  storage := hrest.storage
  unasked k := by
    rw [run, run_perform_of_not_isRejected k w hcall h]
    exact hrest.unasked k

theorem setsCriteria_run (hcalls : ∀ call ∈ calls, call.setsCriteria = true) :
    SetsCriteria calls w (k.run calls w) := by
  induction calls generalizing w with
  | nil => exact setsCriteria_nil w
  | cons call rest ih =>
    have hcall := hcalls call List.mem_cons_self
    have hrest {w : World σ} : SetsCriteria rest w (k.run rest w) :=
      ih fun call h => hcalls call (List.mem_cons_of_mem _ h)
    cases h : call.isRejected with
    | true =>
      obtain ⟨e, hrun⟩ := run_perform_of_isRejected k w h
      rw [run, hrun]
      exact hrest.cons_rejected hcall h
    | false =>
      rw [run, run_perform_of_not_isRejected k w hcall h]
      exact hrest.cons_accepted hcall h

/--
A run that does not break down is the one in which every snapshot is taken to be told.
-/
theorem run_eq_of_run? {v : World σ} (h : k.run? calls w = some v) : k.run calls w = v := by
  induction calls generalizing w with
  | nil => exact Option.some.inj h
  | cons call rest ih =>
    unfold run? at h
    dsimp only at h
    split at h
    · exact ih h
    · cases h

theorem isTold_of_weekStart {s : Snapshot} {now : Timestamp}
    (hweek : Timestamp.firstDay ≤ now.date.weekStart) : s.isTold now = true := by
  unfold Snapshot.isTold
  rw [s.criteria.view?_of_forall now]
  · rfl
  · intro list _ hnone
    have hearly := ((s.criteria.accepts?_eq_none_iff now list).1 hnone).1.2
    omega

theorem run?_eq_some (hweek : Timestamp.firstDay ≤ w.board.now.date.weekStart)
    (hcalls : ∀ call ∈ calls, call.setsCriteria = true) :
    k.run? calls w = some (k.run calls w) := by
  induction calls generalizing w with
  | nil => rfl
  | cons call rest ih =>
    have hcall := hcalls call List.mem_cons_self
    have hrest {w : World σ} (hweek : Timestamp.firstDay ≤ w.board.now.date.weekStart) :
        k.run? rest w = some (k.run rest w) :=
      ih hweek fun call h => hcalls call (List.mem_cons_of_mem _ h)
    unfold run? run
    cases h : call.isRejected with
    | true =>
      obtain ⟨e, hrun⟩ := run_perform_of_isRejected k w h
      rw [hrun]
      simp [hrest hweek]
    | false =>
      rw [run_perform_of_not_isRejected k w hcall h]
      have hnew : (w.publish fun d => { d with criteria := d.criteria.after call }).journal.drop
          w.journal.length = [.published _] := List.drop_left
      dsimp only
      rw [hnew, List.all_cons, List.all_nil, Bool.and_true]
      exact (if_pos (isTold_of_weekStart hweek)).trans (hrest hweek)

/--
The calls that change the criteria do not get in each other's way. Two runs of them from the same
snapshot, seen from the same time, show the same criteria and the same view in the end when they
agree on the last value that each criterion was given, and do not break down. Everything else is as
it was but the version, which has grown by the number of calls that were not rejected, and storage
was not asked. No run breaks down when there is a first day of the current week.
-/
theorem setters_independent (k : Keeper σ) (k' : Keeper τ) (w : World σ) (w' : World τ)
    (hnow : w'.board.now = w.board.now) (hstart : w'.snapshot = w.snapshot)
    {calls calls' : List Call} (hcalls : ∀ call ∈ calls, call.setsCriteria = true)
    (hcalls' : ∀ call ∈ calls', call.setsCriteria = true)
    (hagree : ∀ a : Criterion, a.lastWritten? calls' = a.lastWritten? calls) :
    (∀ v v', k.run? calls w = some v → k'.run? calls' w' = some v' →
      SetsCriteria calls w v ∧ SetsCriteria calls' w' v' ∧
        v'.snapshot.criteria = v.snapshot.criteria ∧ v'.snapshot.view = v.snapshot.view) ∧
    (Timestamp.firstDay ≤ w.board.now.date.weekStart →
      (k.run? calls w).isSome = true ∧ (k'.run? calls' w').isSome = true) := by
  constructor
  · intro v v' hrun hrun'
    have h := setsCriteria_run k (w := w) hcalls
    have h' := setsCriteria_run k' (w := w') hcalls'
    rw [run_eq_of_run? k hrun] at h
    rw [run_eq_of_run? k' hrun'] at h'
    have hcriteria : v'.snapshot.criteria = v.snapshot.criteria := by
      apply Criteria.ext_value
      intro a
      rw [h.criteria, h'.criteria, hagree, hstart]
    refine ⟨h, h', hcriteria, ?_⟩
    have haccepted : (∃ call ∈ calls', call.isRejected = false) ↔
        ∃ call ∈ calls, call.isRejected = false := by
      rw [← Call.exists_lastWritten?_iff hcalls, ← Call.exists_lastWritten?_iff hcalls']
      simp only [hagree]
    by_cases hany : ∃ call ∈ calls, call.isRejected = false
    · rw [h.view hany, h'.view (haccepted.2 hany), hcriteria, hnow, hstart]
    · -- When every call was rejected, both views are still the one that the runs started from.
      have hnone (calls : List Call) (hnot : ¬ ∃ call ∈ calls, call.isRejected = false) :
          ∀ call ∈ calls, call.isRejected = true := by simpa using hnot
      rw [h.refused (hnone _ hany), h'.refused (hnone _ (mt haccepted.1 hany)), hstart]
  · intro hweek
    rw [run?_eq_some k hweek hcalls, run?_eq_some k' (hnow ▸ hweek) hcalls']
    exact ⟨rfl, rfl⟩

/--
One run searches, goes back to the initial criteria, asks for a period that there is not, and for
one that there is. The other one sets the criteria one by one, some of them by blank texts, over
storage that would refuse everything.
-/
theorem setters_independent_reset :
    let full : Gateway Unit := .ofFunction fun request s =>
      (.error (.persistence request.method "disk full"), s)
    let k : Keeper Image := ⟨.initial, Image.gateway.within⟩
    let k' : Keeper Unit := ⟨.initial, full.within⟩
    let tea := Checklist.create "a" "Tea" .epoch
    let w := (World.initial .epoch Image.empty).publish fun d => { d with lists := [tea] }
    let w' := (World.initial .epoch ()).publish fun d => { d with lists := [tea] }
    let calls := [.setQuery "milk", .resetCriteria, .setPeriodText "someday",
      .setPeriodText " Week ", .setOrder .nameAsc]
    let calls' := [.setPeriodText " ", .setShowCompleted true, .setShowInProgress true,
      .setTopic none, .setPeriod (some .thisWeek), .setOrder .nameDesc, .setOrder .nameAsc,
      .setQuery ""]
    (k.run? calls w).map (fun v => (v.snapshot.version, v.snapshot.view)) =
        some (w.snapshot.version + 4, [tea]) ∧
      (k'.run? calls' w').map (fun v => (v.snapshot.version, v.snapshot.view)) =
        some (w'.snapshot.version + 8, [tea]) := by
  intro full k k' tea w w' calls calls'
  have hcalls : ∀ call ∈ calls, call.setsCriteria = true := by decide
  have hcalls' : ∀ call ∈ calls', call.setsCriteria = true := by decide
  have hagree (a : Criterion) : a.lastWritten? calls' = a.lastWritten? calls := by
    cases a <;> decide +kernel
  obtain ⟨hequal, htold⟩ := setters_independent k k' w w' rfl rfl hcalls hcalls' hagree
  obtain ⟨hsome, hsome'⟩ := htold (by decide +kernel)
  obtain ⟨v, hrun⟩ := Option.isSome_iff_exists.1 hsome
  obtain ⟨v', hrun'⟩ := Option.isSome_iff_exists.1 hsome'
  obtain ⟨h, h', _, hview⟩ := hequal v v' hrun hrun'
  have hteas : (k.run calls w).snapshot.view = [tea] := by decide +kernel
  rw [run_eq_of_run? k hrun] at hteas
  rw [hrun, hrun', Option.map_some, Option.map_some, h.version, h'.version, hview, hteas]
  exact ⟨rfl, rfl⟩

/--
One of two runs that agree breaks down: on the second day of all time it cannot be told which lists
were created in the current week.
-/
theorem setters_unanswered :
    let friday : Timestamp :=
      ⟨⟨-262143, 1, 2, by decide, by decide, by decide, by decide⟩, 0, 0, by decide, by decide⟩
    let k : Keeper Image := ⟨.initial, Image.gateway.within⟩
    let tea := Checklist.create "a" "Tea" .epoch
    let w := (World.initial friday Image.empty).publish fun d => { d with lists := [tea] }
    let calls := [.setPeriod (some .thisWeek), .setPeriod none]
    let calls' := [.setPeriod none]
    (∀ call ∈ calls ++ calls', call.setsCriteria = true) ∧
      (∀ a : Criterion, a.lastWritten? calls' = a.lastWritten? calls) ∧
      (k.run? calls w).isNone = true ∧ (k.run? calls' w).isSome = true := by
  intro friday k tea w calls calls'
  refine ⟨by decide, fun a => ?_, by decide +kernel, by decide +kernel⟩
  cases a <;> rfl

end Keeper
end ListKeeper
