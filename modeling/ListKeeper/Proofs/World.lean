import ListKeeper.Proofs.Act
import ListKeeper.Transaction

/-!
This module contains what observers of the program can tell about its state: the snapshots that were
published. It relates states between which nothing was published, and states between which all that
was published had the same lists, and gives the rules for the end of a transaction.
-/

namespace ListKeeper

def Event.snapshot? : Event → Option Snapshot
  | .published snapshot => some snapshot
  | _ => none

namespace World

variable (w : World σ)

def published : List Snapshot :=
  w.journal.filterMap Event.snapshot?

def counted (f : Tally → Tally) : World σ :=
  { w with tally := f w.tally }

@[simp]
theorem published_observe (event : Event) :
    (w.observe event).published = w.published ++ event.snapshot?.toList := by
  unfold published observe
  rw [List.filterMap_append]
  cases event <;> rfl

@[simp]
theorem published_notice (n : Notice) : (w.notice n).published = w.published := by
  unfold notice
  rw [published_observe]
  exact List.append_nil _

@[simp]
theorem tally_notice (n : Notice) : (w.notice n).tally = w.tally := rfl

@[simp]
theorem tally_counted (f : Tally → Tally) : (w.counted f).tally = f w.tally := rfl

@[simp]
theorem tally_publish (edit : Draft → Draft) : (w.publish edit).tally = w.tally := rfl

@[simp]
theorem lists_publish (edit : Draft → Draft) :
    (w.publish edit).snapshot.lists = (edit w.snapshot.draft).lists := rfl

@[simp]
theorem version_publish (edit : Draft → Draft) :
    (w.publish edit).snapshot.version = w.snapshot.version + 1 := rfl

@[simp]
theorem published_publish (edit : Draft → Draft) :
    (w.publish edit).published = w.published ++ [(w.publish edit).snapshot] := by
  have h : (w.publish edit).published =
      ({ w with board := w.board.publish edit }.observe
        (.published (w.board.publish edit).snapshot)).published := rfl
  rw [h, published_observe]
  rfl

theorem publish_congr {edit edit' : Draft → Draft}
    (h : edit w.snapshot.draft = edit' w.snapshot.draft) : w.publish edit = w.publish edit' := by
  unfold publish Board.publish
  rw [show edit w.board.snapshot.draft = edit' w.board.snapshot.draft from h]

structure Untouched (w w' : World σ) : Prop where
  board : w'.board = w.board
  tally : w'.tally = w.tally
  published : w'.published = w.published

variable {w} {w' w'' : World σ}

theorem Untouched.refl (w : World σ) : Untouched w w := ⟨rfl, rfl, rfl⟩

theorem Untouched.trans (h : Untouched w w') (h' : Untouched w' w'') : Untouched w w'' :=
  ⟨h'.board.trans h.board, h'.tally.trans h.tally, h'.published.trans h.published⟩

theorem Untouched.snapshot (h : Untouched w w') : w'.snapshot = w.snapshot :=
  congrArg Board.snapshot h.board

theorem Untouched.notice (h : Untouched w w') (n : Notice) : Untouched w (w'.notice n) :=
  h.trans ⟨rfl, rfl, published_notice w' n⟩

theorem Untouched.observe (h : Untouched w w') {event : Event} (hevent : event.snapshot? = none) :
    Untouched w (w'.observe event) := by
  apply h.trans
  refine ⟨rfl, rfl, ?_⟩
  rw [published_observe, hevent]
  exact List.append_nil _

structure ShowsOnly (lists : List Checklist) (w w' : World σ) : Prop where
  published : ∃ new, w'.published = w.published ++ new ∧ ∀ s ∈ new, s.lists = lists
  current : w'.snapshot.lists = lists

theorem Untouched.showsOnly (h : Untouched w w') : ShowsOnly w.snapshot.lists w w' := by
  constructor
  · exact ⟨[], by rw [h.published, List.append_nil], by simp⟩
  · rw [h.snapshot]

theorem ShowsOnly.counted {lists : List Checklist} (h : ShowsOnly lists w w')
    (f : Tally → Tally) : ShowsOnly lists w (w'.counted f) :=
  ⟨h.published, h.current⟩

theorem ShowsOnly.observe {lists : List Checklist} (h : ShowsOnly lists w w') {event : Event}
    (hevent : event.snapshot? = none) : ShowsOnly lists w (w'.observe event) := by
  obtain ⟨new, hnew, hlists⟩ := h.published
  refine ⟨⟨new, ?_, hlists⟩, h.current⟩
  rw [published_observe, hevent, hnew]
  exact List.append_nil _

theorem ShowsOnly.notice {lists : List Checklist} (h : ShowsOnly lists w w') (n : Notice) :
    ShowsOnly lists w (w'.notice n) :=
  h.observe rfl

theorem ShowsOnly.publish {lists : List Checklist} (h : ShowsOnly lists w w')
    {edit : Draft → Draft} (hedit : (edit w'.snapshot.draft).lists = w'.snapshot.lists) :
    ShowsOnly lists w (w'.publish edit) := by
  obtain ⟨new, hnew, hlists⟩ := h.published
  have hcurrent : (w'.publish edit).snapshot.lists = lists := by
    rw [lists_publish, hedit, h.current]
  refine ⟨⟨new ++ [(w'.publish edit).snapshot], ?_, ?_⟩, hcurrent⟩
  · rw [published_publish, hnew, List.append_assoc]
  · intro s hs
    rcases List.mem_append.1 hs with hs | hs
    · exact hlists s hs
    · rw [List.mem_singleton.1 hs, hcurrent]

theorem Untouched.publish (h : Untouched w w') (edit : Draft → Draft) :
    ShowsOnly (edit w'.snapshot.draft).lists w (w'.publish edit) := by
  refine ⟨⟨[(w'.publish edit).snapshot], ?_, ?_⟩, rfl⟩
  · rw [published_publish, h.published]
  · intro s hs
    rw [List.mem_singleton.1 hs, lists_publish]

structure Commits (lists : List Checklist) (w w' : World σ) : Prop where
  published : w'.published = w.published ++ [w'.snapshot]
  version : w'.snapshot.version = w.snapshot.version + 1
  current : w'.snapshot.lists = lists

theorem Untouched.commits (h : Untouched w w') {lists : List Checklist} {edit : Draft → Draft}
    (hedit : (edit w.snapshot.draft).lists = lists) : Commits lists w (w'.publish edit) := by
  refine ⟨?_, ?_, ?_⟩
  · rw [published_publish, h.published]
  · rw [version_publish, h.snapshot]
  · rw [lists_publish, h.snapshot, hedit]

theorem Commits.counted {lists : List Checklist} (h : Commits lists w w') (f : Tally → Tally) :
    Commits lists w (w'.counted f) :=
  ⟨h.published, h.version, h.current⟩

theorem Commits.notice {lists : List Checklist} (h : Commits lists w w') (n : Notice) :
    Commits lists w (w'.notice n) :=
  ⟨(published_notice w' n).trans h.published, h.version, h.current⟩

end World

namespace Act

variable {ok : α → World σ → Prop} {fail : Error → World σ → Prop} {w : World σ}

@[simp]
theorem ends_notice {ok : Unit → World σ → Prop} {n : Notice} :
    (Act.notice n).Ends w ok fail ↔ ok () (w.notice n) := Iff.rfl

def Discreet (m : Act (World σ) α) : Prop :=
  ∀ w, World.Untouched w (m.run w).2

theorem Discreet.ends {m : Act (World σ) α} (h : m.Discreet) (w : World σ) :
    m.Ends w (fun _ w' => World.Untouched w w') (fun _ w' => World.Untouched w w') :=
  ends_of_run (h w)

theorem built_discreet : Built fun m : Act (World σ) _ => m.Discreet where
  done _ w := .refl w
  continueWith hm hf w := by
    rw [run_continueWith]
    exact (hm w).trans (hf _ _)

theorem run_ofStorage (m : Act σ α) (w : World σ) :
    m.ofStorage.run w = ((m.run w.storage).1, { w with storage := (m.run w.storage).2 }) := by
  induction m generalizing w with
  | done outcome => rfl
  | step change next ih => exact ih w.storage { w with storage := change w.storage }
  | wait ready giveUp next ih => exact ih w

theorem discreet_ofStorage (m : Act σ α) : m.ofStorage.Discreet := by
  intro w
  rw [run_ofStorage]
  exact ⟨rfl, rfl, rfl⟩

end Act

structure Gateway.Discreet (g : Gateway (World σ)) : Prop where
  ask : ∀ {α : Type} (request : Request α), (g.ask request).Discreet
  together : ∀ {α : Type} (ms : List (Act (World σ) α)), (∀ m ∈ ms, m.Discreet) →
    (g.together ms).Discreet

theorem Gateway.discreet_within (g : Gateway σ) : g.within.Discreet where
  ask request := Act.discreet_ofStorage (g.ask request)
  together _ hms := Act.built_discreet.inTurn hms

end ListKeeper
