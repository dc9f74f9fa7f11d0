import ListKeeper.Proofs.Keeper.Accounts
import ListKeeper.Proofs.Keeper.Recording
import ListKeeper.Proofs.Keeper.Status
import Mathlib.Data.List.Forall2

/-!
This module contains what loads of all lists come to, one after the other, while others change the
storage: each reads storage once, and what is shown and reported follows from what it was told.
-/

namespace ListKeeper

def Event.span? : Event → Option Span
  | .entered span => some span
  | _ => none

def failure? : Except Error α → Option Error
  | .ok _ => none
  | .error e => some e

namespace World

variable (w : World σ)

def entered : List Span :=
  w.journal.filterMap Event.span?

@[simp]
theorem entered_observe (event : Event) :
    (w.observe event).entered = w.entered ++ event.span?.toList := by
  unfold entered observe
  rw [List.filterMap_append]
  cases event <;> rfl

@[simp]
theorem entered_publish (edit : Draft → Draft) : (w.publish edit).entered = w.entered := by
  have h : (w.publish edit).entered =
      ({ w with board := w.board.publish edit }.observe
        (.published (w.board.publish edit).snapshot)).entered := rfl
  rw [h, entered_observe]
  exact List.append_nil _

@[simp]
theorem entered_foldl_notice (notices : List Notice) :
    (notices.foldl World.notice w).entered = w.entered := by
  induction notices generalizing w with
  | nil => rfl
  | cons n rest ih =>
    rw [List.foldl_cons, ih]
    unfold notice
    rw [entered_observe]
    exact List.append_nil _

structure LoadsEach (told : List (List Heard)) (outcomes : List (Except Error (List Checklist)))
    (w w' : World (Overheard σ)) : Prop where
  heard : w'.storage.heard = w.storage.heard ++ told.flatten
  told : List.Forall₂ ReadAll told outcomes
  entered : w'.entered = w.entered ++
    List.replicate outcomes.length ⟨"orchestrator.load_all", []⟩
  reports : w'.reports = w.reports ++
    (outcomes.filterMap failure?).map fun e => ("ListsOrchestrator::load_all", e)
  version : w'.snapshot.version = w.snapshot.version + 2 * outcomes.length

structure ShowsOutcome (outcome : Except Error (List Checklist)) (lists : List Checklist)
    (w : World σ) : Prop where
  lists : w.snapshot.lists = outcome.toOption.getD lists
  error : w.snapshot.error = (failure? outcome).map Error.userMessage
  loading : w.snapshot.loading = false

variable {w} {w₀ w₁ w₂ : World (Overheard σ)} {told told' : List (List Heard)}
variable {outcomes outcomes' : List (Except Error (List Checklist))}

theorem LoadsEach.nil (w : World (Overheard σ)) : LoadsEach [] [] w w :=
  ⟨(List.append_nil _).symm, .nil, (List.append_nil _).symm, (List.append_nil _).symm, rfl⟩

theorem LoadsEach.trans (h : LoadsEach told outcomes w₀ w₁)
    (h' : LoadsEach told' outcomes' w₁ w₂) :
    LoadsEach (told ++ told') (outcomes ++ outcomes') w₀ w₂ := by
  refine ⟨?_, List.rel_append h.told h'.told, ?_, ?_, ?_⟩
  · rw [h'.heard, h.heard, List.flatten_append, List.append_assoc]
  · rw [h'.entered, h.entered, List.length_append, ← List.replicate_append_replicate,
      List.append_assoc]
  · rw [h'.reports, h.reports, List.filterMap_append, List.map_append, List.append_assoc]
  · rw [h'.version, h.version, List.length_append]
    omega

theorem LoadsEach.notices (h : LoadsEach told outcomes w₀ w₁) (notices : List Notice) :
    LoadsEach told outcomes w₀ (notices.foldl World.notice w₁) := by
  refine ⟨?_, h.told, ?_, ?_, ?_⟩
  · rw [foldl_notice]
    exact h.heard
  · rw [entered_foldl_notice, h.entered]
  · rw [reports_foldl_notice, h.reports]
  · rw [foldl_notice]
    exact h.version

theorem LoadsEach.still (h : LoadsEach told outcomes w₀ w₁) (hstill : Hears [] w₁ w₂) :
    LoadsEach told outcomes w₀ w₂ := by
  have hheard : w₂.storage.heard = w₁.storage.heard := hstill.heard.trans (List.append_nil _)
  refine ⟨hheard.trans h.heard, h.told, ?_, ?_, ?_⟩
  · exact (congrArg (List.filterMap Event.span?) hstill.journal).trans h.entered
  · exact (congrArg (List.filterMap Event.report?) hstill.journal).trans h.reports
  · exact (congrArg (·.snapshot.version) hstill.board).trans h.version

theorem ShowsOutcome.notices {outcome : Except Error (List Checklist)} {lists : List Checklist}
    {w : World σ} (h : ShowsOutcome outcome lists w) (notices : List Notice) :
    ShowsOutcome outcome lists (notices.foldl World.notice w) := by
  rw [foldl_notice]
  exact ⟨h.lists, h.error, h.loading⟩

theorem ShowsOutcome.still {outcome : Except Error (List Checklist)} {lists : List Checklist}
    (h : ShowsOutcome outcome lists w₁) (hstill : Hears [] w₁ w₂) :
    ShowsOutcome outcome lists w₂ := by
  have hsnapshot : w₂.snapshot = w₁.snapshot := congrArg Board.snapshot hstill.board
  refine ⟨?_, ?_, ?_⟩
  · rw [hsnapshot, h.lists]
  · rw [hsnapshot, h.error]
  · rw [hsnapshot, h.loading]

end World

namespace Keeper

open World Act

variable {config : KeeperConfig} {g : Gateway σ}
variable {joined : {α : Type} → List (Act (World (Overheard σ)) α) →
  Act (World (Overheard σ)) (List α)}
variable {w w' : World (Overheard σ)} {r : Except Error Snapshot}

theorem comesTo_reading (h : ComesTo Elsewhere (overheard config g joined).loadAll w r w') :
    ∃ v, Hears [] (reading w) v ∧
      ComesTo Elsewhere ((overheard config g joined).fetchAll.outcome >>= fun
        | .ok lists => do
          let snapshot ← Act.publish fun d =>
            { d with lists := lists, loading := false, error := none }
          Act.notice (.listsLoaded lists.length snapshot.version)
          return snapshot
        | .error e => do
          reportFailure "load_all" e fun d => { d with loading := false }
          Act.fail e) v r w' := by
  cases h with
  | step _ _ hentering h =>
    cases h with
    | step _ _ hpublishing h =>
      refine ⟨_, ?_, h⟩
      have hentered := (hears_of_elsewhere hentering).observe (.entered ⟨"orchestrator.load_all", []⟩)
      exact (hentered.elsewhere hpublishing).publish _

theorem comesTo_showing {lists : List Checklist}
    (h : ComesTo Elsewhere (do
      let snapshot ← Act.publish fun d => { d with lists := lists, loading := false, error := none }
      Act.notice (.listsLoaded lists.length snapshot.version)
      return snapshot : Act (World (Overheard σ)) Snapshot) w r w') :
    failure? r = none ∧ ∃ n : Notice, Hears []
      ((w.publish fun d => { d with lists := lists, loading := false, error := none }).notice n)
      w' := by
  cases h with
  | step _ _ hpublishing h =>
    cases h with
    | step _ _ hnoticing h =>
      cases h with
      | done _ hafter =>
        have hpublished := ((hears_of_elsewhere hpublishing).publish _).elsewhere hnoticing
        exact ⟨rfl, _, (hpublished.observe _).elsewhere hafter⟩

theorem comesTo_reporting {e : Error}
    (h : ComesTo Elsewhere (do
      reportFailure "load_all" e fun d => { d with loading := false }
      Act.fail e : Act (World (Overheard σ)) Snapshot) w r w') :
    failure? r = some e ∧ Hears []
      ((w.observe (.reported "ListsOrchestrator::load_all" e)).publish fun d =>
        { d with loading := false, error := some e.userMessage }) w' := by
  cases h with
  | step _ _ hreporting h =>
    cases h with
    | step _ _ hpublishing h =>
      cases h with
      | done _ hafter =>
        have hreported := ((hears_of_elsewhere hreporting).observe _).elsewhere hpublishing
        exact ⟨rfl, (hreported.publish _).elsewhere hafter⟩

theorem entered_reading (w : World σ) :
    (reading w).entered = w.entered ++ [⟨"orchestrator.load_all", []⟩] := by
  unfold reading
  rw [entered_publish, entered_observe]
  rfl

theorem reports_reading (w : World σ) : (reading w).reports = w.reports := by
  unfold reading
  rw [reports_publish, reports_observe]
  exact List.append_nil _

theorem loadsEach_loadAll (hjoined : JoinsAllAmid Elsewhere joined)
    (hplace : w.storage.place = none)
    (h : ComesTo Elsewhere (overheard config g joined).loadAll w r w') :
    ∃ told outcome, failure? r = failure? outcome ∧ w'.storage.place = none ∧
      LoadsEach [told] [outcome] w w' ∧ ShowsOutcome outcome w.snapshot.lists w' := by
  obtain ⟨v, hreading, h⟩ := comesTo_reading h
  obtain ⟨_, v₁, hfetch, h⟩ := ComesTo.continueWith h
  obtain ⟨outcome, v₂, hfetched, hpassed⟩ := ComesTo.continueWith hfetch
  obtain ⟨told, hheard, hread⟩ := comesTo_fetchAll hjoined (hreading.place.trans hplace) hfetched
  cases hpassed with
  | done _ hothers =>
    have hheard : Hears told (reading w) v₁ := (hreading.trans hheard).elsewhere hothers
    refine ⟨told, outcome, ?_⟩
    cases outcome with
    | ok lists =>
      obtain ⟨hr, n, hshown⟩ := comesTo_showing h
      have hall := ((hheard.publish _).observe _).still hshown
      refine ⟨hr, hall.place.trans hplace, ⟨?_, .cons hread .nil, ?_, ?_, ?_⟩, ⟨?_, ?_, ?_⟩⟩
      · exact hall.heard.trans (congrArg (w.storage.heard ++ ·) (List.append_nil told).symm)
      · refine (congrArg (List.filterMap Event.span?) hall.journal).trans ?_
        exact (entered_observe _ _).trans <| (List.append_nil _).trans <|
          (entered_publish _ _).trans (entered_reading w)
      · refine (congrArg (List.filterMap Event.report?) hall.journal).trans ?_
        exact (reports_observe _ _).trans <| congrArg (· ++ _) <|
          (reports_publish _ _).trans (reports_reading w)
      · exact congrArg (·.snapshot.version) hall.board
      · exact congrArg (·.snapshot.lists) hall.board
      · exact congrArg (·.snapshot.error) hall.board
      · exact congrArg (·.snapshot.loading) hall.board
    | error e =>
      obtain ⟨hr, hshown⟩ := comesTo_reporting h
      have hall := ((hheard.observe _).publish _).still hshown
      refine ⟨hr, hall.place.trans hplace, ⟨?_, .cons hread .nil, ?_, ?_, ?_⟩, ⟨?_, ?_, ?_⟩⟩
      · exact hall.heard.trans (congrArg (w.storage.heard ++ ·) (List.append_nil told).symm)
      · refine (congrArg (List.filterMap Event.span?) hall.journal).trans ?_
        exact (entered_publish _ _).trans <| (entered_observe _ _).trans <|
          (List.append_nil _).trans (entered_reading w)
      · refine (congrArg (List.filterMap Event.report?) hall.journal).trans ?_
        exact (reports_publish _ _).trans <| (reports_observe _ _).trans <|
          congrArg (· ++ _) (reports_reading w)
      · exact congrArg (·.snapshot.version) hall.board
      · exact congrArg (·.snapshot.lists) hall.board
      · exact congrArg (·.snapshot.error) hall.board
      · exact congrArg (·.snapshot.loading) hall.board

theorem prompt_loadAll (hg : ∀ {α : Type} (request : Request α), (g.ask request).Prompt)
    (hjoined : ∀ {α : Type} {ms : List (Act (World (Overheard σ)) α)},
      (∀ m ∈ ms, m.Prompt) → (joined ms).Prompt) :
    (overheard config g joined).loadAll.Prompt := by
  have hask {α : Type} (request : Request α) : ((overheard config g joined).ask request).Prompt :=
    (hg request).within.continueWith fun _ _ => trivial
  have hfetch : (overheard config g joined).fetchAll.Prompt := by
    refine built_prompt.bind (hask .allLists) fun lists _ => hjoined fun m hm => ?_
    obtain ⟨place, hplace⟩ := List.mem_iff_getElem?.1 hm
    rw [List.getElem?_mapIdx] at hplace
    obtain ⟨reading, hreading, rfl⟩ := Option.map_eq_some_iff.1 hplace
    obtain ⟨list, -, rfl⟩ := List.mem_map.1 (List.mem_of_getElem? hreading)
    exact (built_prompt.bind (hask (.itemsOf list.id)) fun _ => built_prompt.pure _).within
  intro _ _
  refine built_prompt.bind (built_prompt.outcome hfetch) fun outcome => ?_
  cases outcome with
  | ok lists => exact fun _ _ => trivial
  | error e => exact fun _ _ => trivial

end Keeper
end ListKeeper
