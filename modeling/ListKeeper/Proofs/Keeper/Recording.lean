import ListKeeper.Keeper.Call
import ListKeeper.Proofs.Simulation.Waiting
import ListKeeper.Proofs.Storage.Fault
import Mathlib.Data.List.Basic

/-!
This module contains storage whose answers are written down, so that what a keeper does can be
compared with what it was told. Calls that are made side by side are told apart by their places,
because they may be answered in any order.
-/

namespace ListKeeper

inductive Answer where
  | lists (lists : List Checklist)
  | list (list : Option Checklist)
  | items (items : List Item)
  | item (item : Option Item)
  | confirmed (yes : Bool)
  | done
deriving DecidableEq

def Request.answer : Request α → α → Answer
  | .allLists, lists => .lists lists
  | .findList _, list => .list list
  | .itemsOf _, items => .items items
  | .findItem _, item => .item item
  | .verify .., yes => .confirmed yes
  | .saveList _, _ | .deleteList _, _ | .saveItem _, _ | .deleteItem _, _ | .clear, _ => .done

theorem Request.answer_inj (request : Request α) {a a' : α}
    (h : request.answer a = request.answer a') : a = a' := by
  cases request with
  | allLists => exact Answer.lists.inj h
  | findList id => exact Answer.list.inj h
  | itemsOf listId => exact Answer.items.inj h
  | findItem id => exact Answer.item.inj h
  | verify change id => exact Answer.confirmed.inj h
  | _ => rfl

structure Recorded (σ : Type) where
  storage : σ
  heard : List (Except Error Answer)

def Gateway.recording (g : Gateway σ) : Gateway (Recorded σ) :=
  .ofFunction fun request s =>
    let (result, storage) := (g.ask request).run s.storage
    (result, ⟨storage, s.heard ++ [result.map request.answer]⟩)

def World.heard (w : World (Recorded σ)) : List (Except Error Answer) :=
  w.storage.heard

def Keeper.recording (config : KeeperConfig) (g : Gateway σ) : Keeper (Recorded σ) :=
  ⟨config, g.recording.within⟩

inductive Heard where
  | alone (answer : Except Error Answer)
  | abreast (answers : List (Option (Except Error Answer)))
deriving DecidableEq

def Heard.put (place : Nat) (answer : Except Error Answer) : Heard → Heard
  | .alone answer => .alone answer
  | .abreast answers => .abreast (answers.set place (some answer))

structure Overheard (σ : Type) where
  storage : σ
  place : Option Nat
  heard : List Heard

namespace World

variable (w : World (Overheard σ))

def atPlace (place : Option Nat) : World (Overheard σ) :=
  { w with storage.place := place }

def hear (answer : Except Error Answer) : World (Overheard σ) :=
  let heard := w.storage.heard
  { w with storage.heard :=
    match w.storage.place with
    | none => heard ++ [.alone answer]
    | some place => heard.modify (heard.length - 1) (Heard.put place answer) }

def prepare (count : Nat) : World (Overheard σ) :=
  { w with storage.heard := w.storage.heard ++ [.abreast (List.replicate count none)] }

end World

namespace Act

def beneath (m : Act σ α) : Act (World (Overheard σ)) α :=
  m.within (·.storage.storage) fun change w =>
    { w with storage.storage := change w.storage.storage }

def placed (place : Nat) (m : Act (World (Overheard σ)) α) : Act (World (Overheard σ)) α :=
  m.within (·.atPlace (some place)) fun change w =>
    (change (w.atPlace (some place))).atPlace none

end Act

def Request.overheard (request : Request α) (m : Act σ α) : Act (World (Overheard σ)) α :=
  m.beneath.continueWith fun r => .step (·.hear (r.map request.answer)) fun _ => .done r

/--
Storage of any kind whose answers are written down. Its actions may have to wait, and actions that
call it are run side by side by `joined`.
-/
def Gateway.overheard (g : Gateway σ)
    (joined : {α : Type} → List (Act (World (Overheard σ)) α) →
      Act (World (Overheard σ)) (List α)) : Gateway (World (Overheard σ)) where
  ask request := request.overheard (g.ask request)
  together ms :=
    .step (·.prepare ms.length) fun _ => joined (ms.mapIdx fun place m => m.placed place)

def Request.answerFrom (lists : List Checklist) : Request α → α
  | .allLists => lists.map (·.withoutItems)
  | .findList id => (lists.find? (·.id == id)).map (·.withoutItems)
  | .itemsOf listId => (lists.filter (·.id == listId)).flatMap (·.items)
  | .findItem id => (lists.flatMap (·.items)).find? (·.id == id)
  | .verify .. => true
  | .saveList _ | .deleteList _ | .saveItem _ | .deleteItem _ | .clear => ()

def Gateway.holding (lists : List Checklist) : Gateway (List Fate) :=
  .ofFunction fun request fates =>
    match fates with
    | .refused e :: rest | .lost e :: rest => (.error e, rest)
    | .served :: rest => (.ok (request.answerFrom lists), rest)
    | [] => (.ok (request.answerFrom lists), [])

def Gateway.pausing (g : Gateway σ) (listId : String) : Gateway σ where
  ask request :=
    if request.method = "get_items_by_list" ∧ request.subject = listId then
      .step id fun _ => .wait (fun _ => true) id (g.ask request)
    else
      g.ask request
  together := g.together

/--
Others have changed the storage, but not what is written down.
-/
def World.Elsewhere (w w' : World (Overheard σ)) : Prop :=
  ∃ storage, w' = { w with storage.storage := storage }

inductive ReadItems (lists : List Checklist) :
    List (Option (Except Error Answer)) → Except Error (List Checklist) → Prop
  | broken {answers : List (Option (Except Error Answer))} {i : Nat} {e : Error}
    (hi : answers[i]? = some (some (.error e)))
    (hfirst : ∀ j < i, ∀ e', answers[j]? ≠ some (some (.error e'))) :
    ReadItems lists answers (.error e)
  | whole (items : List (List Item)) (h : items.length = lists.length) :
    ReadItems lists (items.map fun items => some (.ok (.items items)))
      (.ok (lists.zipWith (fun list items => { list with items := items }) items))

inductive ReadAll : List Heard → Except Error (List Checklist) → Prop
  | refused (e : Error) : ReadAll [.alone (.error e)] (.error e)
  | read (lists : List Checklist) {answers : List (Option (Except Error Answer))}
    {r : Except Error (List Checklist)} (h : ReadItems lists answers r) :
    ReadAll [.alone (.ok (.lists lists)), .abreast answers] r

namespace World

structure Hears (new : List Heard) (w w' : World (Overheard σ)) : Prop where
  board : w'.board = w.board
  tally : w'.tally = w.tally
  journal : w'.journal = w.journal
  place : w'.storage.place = w.storage.place
  heard : w'.storage.heard = w.storage.heard ++ new

variable {new new' : List Heard} {w w' w'' : World (Overheard σ)}

theorem Hears.refl (w : World (Overheard σ)) : Hears [] w w :=
  ⟨rfl, rfl, rfl, rfl, (List.append_nil _).symm⟩

theorem Hears.trans (h : Hears new w w') (h' : Hears new' w' w'') : Hears (new ++ new') w w'' := by
  refine ⟨h'.board.trans h.board, h'.tally.trans h.tally, h'.journal.trans h.journal,
    h'.place.trans h.place, ?_⟩
  rw [h'.heard, h.heard, List.append_assoc]

theorem Hears.observe (h : Hears new w w') (event : Event) :
    Hears new (w.observe event) (w'.observe event) :=
  ⟨h.board, h.tally, congrArg (· ++ [event]) h.journal, h.place, h.heard⟩

theorem Hears.publish (h : Hears new w w') (edit : Draft → Draft) :
    Hears new (w.publish edit) (w'.publish edit) := by
  have hboard : w'.board.publish edit = w.board.publish edit :=
    congrArg (Board.publish · edit) h.board
  refine ⟨hboard, h.tally, ?_, h.place, h.heard⟩
  show w'.journal ++ [.published (w'.board.publish edit).snapshot] = _
  rw [h.journal, hboard]
  rfl

theorem Elsewhere.hears (h : Elsewhere w w') : Hears [] w w' := by
  obtain ⟨storage, rfl⟩ := h
  exact ⟨rfl, rfl, rfl, rfl, (List.append_nil _).symm⟩

theorem hears_of_elsewhere (h : Relation.ReflTransGen Elsewhere w w') : Hears [] w w' := by
  induction h with
  | refl => exact .refl w
  | tail _ h ih => exact ih.trans h.hears

theorem Hears.still (h : Hears new w w') (h' : Hears [] w' w'') : Hears new w w'' := by
  have h := h.trans h'
  rw [List.append_nil] at h
  exact h

theorem Hears.elsewhere (h : Hears new w w') (h' : Relation.ReflTransGen Elsewhere w' w'') :
    Hears new w w'' :=
  h.still (hears_of_elsewhere h')

end World

namespace Act

open World

variable {w w' : World (Overheard σ)}

theorem comesTo_overheard (request : Request α) {m : Act σ α} {r : Except Error α}
    (hplace : w.storage.place = none)
    (h : ComesTo Elsewhere (request.overheard m) w r w') :
    Hears [.alone (r.map request.answer)] w w' := by
  induction m generalizing w with
  | done outcome =>
    cases h with
    | @step _ _ _ w₁ _ _ hothers hnext =>
      cases hnext with
      | done _ hafter =>
        have hbefore := hears_of_elsewhere hothers
        have hheard : Hears [.alone (r.map request.answer)] w₁
            (w₁.hear (r.map request.answer)) := by
          refine ⟨rfl, rfl, rfl, rfl, ?_⟩
          unfold World.hear
          rw [hbefore.place, hplace]
        exact (hbefore.trans hheard).elsewhere hafter
  | step change next ih =>
    cases h with
    | @step _ _ _ w₁ _ _ hothers hnext =>
      have hbefore := hears_of_elsewhere hothers
      have hchange : Hears [] w₁
          { w₁ with storage.storage := change w₁.storage.storage } :=
        Elsewhere.hears ⟨_, rfl⟩
      exact (hbefore.trans hchange).trans (ih _ (hbefore.place.trans hplace) hnext)
  | wait ready giveUp next ih =>
    cases h with
    | wait _ _ _ hothers hready hnext =>
      have hbefore := hears_of_elsewhere hothers
      exact hbefore.trans (ih (hbefore.place.trans hplace) hnext)

end Act

namespace Keeper

open World Act

def readingItems (place : Nat) (list : Checklist) (m : Act σ (List Item)) :
    Act (World (Overheard σ)) Checklist :=
  Act.placed place do return list.withItems (← (Request.itemsOf list.id).overheard m)

theorem readingItems_done (place : Nat) (list : Checklist) (r : Except Error (List Item)) :
    readingItems place list (.done r : Act σ (List Item)) =
      .step (fun w => ((w.atPlace (some place)).hear (r.map .items)).atPlace none)
        fun _ => .done (r.map list.withItems) := by
  cases r with
  | error e => rfl
  | ok items => rfl

inductive Partway (place : Nat) (list : Checklist) :
    Option (Except Error Answer) → Act (World (Overheard σ)) Checklist → Prop
  | reading (m : Act σ (List Item)) : Partway place list none (readingItems place list m)
  | answered (r : Except Error (List Item)) :
    Partway place list (some (r.map .items)) (.done (r.map list.withItems))

structure Underway (lists : List Checklist) (answers : List (Option (Except Error Answer)))
    (ms : List (Act (World (Overheard σ)) Checklist)) : Prop where
  length : answers.length = lists.length
  length' : ms.length = lists.length
  partway : ∀ {i : Nat} {list : Checklist} {answer : Option (Except Error Answer)}
    {m : Act (World (Overheard σ)) Checklist}, lists[i]? = some list → answers[i]? = some answer →
    ms[i]? = some m → Partway i list answer m

section Readings

variable {lists : List Checklist} {answers : List (Option (Except Error Answer))}
variable {ms : List (Act (World (Overheard σ)) Checklist)} {i : Nat}
variable {m : Act (World (Overheard σ)) Checklist} {w w' base : World (Overheard σ)}

theorem Partway.hears_abandon {list : Checklist} {answer : Option (Except Error Answer)}
    (h : Partway i list answer m) (hplace : w.storage.place = none) :
    Hears [] w (m.abandon w) := by
  cases h with
  | answered r => exact .refl w
  | reading n =>
    cases n with
    | done r =>
      rw [readingItems_done]
      exact .refl w
    | step change next => exact .refl w
    | wait ready giveUp next =>
      exact ⟨rfl, rfl, rfl, hplace.symm, (List.append_nil _).symm⟩

theorem Partway.eq_of_done {list : Checklist} {answer : Option (Except Error Answer)}
    {r : Except Error Checklist}
    (h : Partway i list answer (.done r : Act (World (Overheard σ)) Checklist)) :
    ∃ told : Except Error (List Item), answer = some (told.map .items) ∧
      r = told.map fun items => { list with items := items } := by
  generalize hm : (.done r : Act (World (Overheard σ)) Checklist) = m at h
  cases h with
  | reading n =>
    cases n with
    | done told =>
      rw [readingItems_done] at hm
      cases hm
    | step change next => cases hm
    | wait ready giveUp next => cases hm
  | answered told =>
    cases hm
    exact ⟨told, rfl, rfl⟩

theorem Partway.eq_of_refused {list : Checklist} {e : Error}
    (h : Partway i list (some (.error e)) m) : m = .done (.error e) := by
  generalize ha : (some (.error e) : Option (Except Error Answer)) = answer at h
  cases h with
  | reading n => cases ha
  | answered told =>
    cases told with
    | ok items => cases ha
    | error e' =>
      cases ha
      rfl

theorem Underway.exists_of_action (h : Underway lists answers ms) (hm : ms[i]? = some m) :
    ∃ list answer, lists[i]? = some list ∧ answers[i]? = some answer ∧
      Partway i list answer m := by
  have hlt : i < ms.length := (List.getElem?_eq_some_iff.1 hm).1
  have hlist : i < lists.length := by rwa [← h.length']
  have hanswer : i < answers.length := by rwa [h.length]
  have hlist := List.getElem?_eq_getElem hlist
  have hanswer := List.getElem?_eq_getElem hanswer
  exact ⟨_, _, hlist, hanswer, h.partway hlist hanswer hm⟩

theorem Underway.set (h : Underway lists answers ms) {answer : Option (Except Error Answer)}
    {list : Checklist} (hlist : lists[i]? = some list) (hm : Partway i list answer m) :
    Underway lists (answers.set i answer) (ms.set i m) := by
  refine ⟨List.length_set.trans h.length, List.length_set.trans h.length', ?_⟩
  intro j list' answer' m' hlist' hanswer hm'
  by_cases hij : i = j
  · subst hij
    rw [List.getElem?_set_self'] at hanswer hm'
    obtain ⟨_, _, rfl⟩ := Option.map_eq_some_iff.1 hanswer
    obtain ⟨_, _, rfl⟩ := Option.map_eq_some_iff.1 hm'
    cases hlist.symm.trans hlist'
    exact hm
  · rw [List.getElem?_set_ne hij] at hanswer hm'
    exact h.partway hlist' hanswer hm'

theorem Underway.readItems_ok {as : List Checklist}
    (h : Underway lists answers
      (as.map fun a => (.done (.ok a) : Act (World (Overheard σ)) Checklist))) :
    ReadItems lists answers (.ok as) := by
  have hlength : as.length = lists.length := by
    rw [← h.length', List.length_map]
  have hover (j : Nat) (hj : j < as.length) (hlist : j < lists.length)
      (hanswer : j < answers.length) : answers[j] = some (.ok (.items as[j].items)) ∧
        as[j] = { lists[j] with items := as[j].items } := by
    have hpartway := h.partway (m := .done (.ok as[j])) (List.getElem?_eq_getElem hlist)
      (List.getElem?_eq_getElem hanswer) (by rw [List.getElem?_map, List.getElem?_eq_getElem hj]; rfl)
    obtain ⟨told, hanswer, hdone⟩ := hpartway.eq_of_done
    cases told with
    | error e => cases hdone
    | ok items =>
      have hdone := Except.ok.inj hdone
      rw [hanswer, hdone]
      exact ⟨rfl, rfl⟩
  have hanswers : answers = (as.map (·.items)).map fun items => some (.ok (.items items)) := by
    apply List.ext_getElem (by simp [h.length, hlength])
    intro j hj hj'
    have hlist : j < lists.length := by rwa [← h.length]
    simp only [List.getElem_map]
    exact (hover j (hlength ▸ hlist) hlist hj).1
  have has : as = lists.zipWith (fun list items => { list with items := items })
      (as.map (·.items)) := by
    apply List.ext_getElem (by simp [hlength])
    intro j hj hj'
    have hlist : j < lists.length := hlength ▸ hj
    simp only [List.getElem_zipWith, List.getElem_map]
    exact (hover j hj hlist (h.length ▸ hlist)).2
  have hwhole : ReadItems lists _ _ :=
    .whole (as.map (·.items)) ((List.length_map _).trans hlength)
  rw [← hanswers, ← has] at hwhole
  exact hwhole

theorem Underway.readItems_error (h : Underway lists answers ms) {e : Error}
    (hi : ms[i]? = some (.done (.error e)))
    (hfirst : ∀ j < i, ∀ e', ms[j]? ≠ some (.done (.error e'))) :
    ReadItems lists answers (.error e) := by
  obtain ⟨list, answer, _, hanswer, hpartway⟩ := h.exists_of_action hi
  obtain ⟨told, rfl, hdone⟩ := hpartway.eq_of_done
  cases told with
  | ok items => cases hdone
  | error e' =>
    cases hdone
    refine .broken hanswer fun j hj e' he' => hfirst j hj e' ?_
    have hj : j < answers.length := (List.getElem?_eq_some_iff.1 he').1
    have hlist : j < lists.length := by rwa [← h.length]
    have haction : j < ms.length := by rwa [h.length']
    have hpartway := h.partway (List.getElem?_eq_getElem hlist) he'
      (List.getElem?_eq_getElem haction)
    rw [List.getElem?_eq_getElem haction, hpartway.eq_of_refused]

theorem Underway.setReading (h : Underway lists answers ms) {list : Checklist}
    (hlist : lists[i]? = some list) (hanswer : answers[i]? = some none) (n : Act σ (List Item)) :
    Underway lists answers (ms.set i (readingItems i list n)) := by
  have hset : answers.set i none = answers := by
    obtain ⟨_, hnone⟩ := List.getElem?_eq_some_iff.1 hanswer
    rw [← hnone, List.set_getElem_self]
  have hon := h.set hlist (Partway.reading n)
  rwa [hset] at hon

theorem Underway.hears_abandon (h : Underway lists answers ms) (hplace : w.storage.place = none)
    (hsteps : Relation.ReflTransGen (fun v v' => Elsewhere v v' ∨ ∃ m ∈ ms, v' = m.abandon v)
      w w') : Hears [] w w' := by
  induction hsteps with
  | refl => exact .refl w
  | tail _ hstep ih =>
    apply ih.still
    rcases hstep with hothers | ⟨m, hm, rfl⟩
    · exact hothers.hears
    · obtain ⟨j, hj⟩ := List.mem_iff_getElem?.1 hm
      obtain ⟨_, _, _, _, hpartway⟩ := h.exists_of_action hj
      exact hpartway.hears_abandon (ih.place.trans hplace)

theorem Underway.step (h : Underway lists answers ms)
    {change : World (Overheard σ) → World (Overheard σ)}
    {next : World (Overheard σ) → Act (World (Overheard σ)) Checklist}
    (hi : ms[i]? = some (.step change next)) (hplace : base.storage.place = none)
    (hw : Hears [.abreast answers] base w) :
    ∃ answers', Underway lists answers' (ms.set i (next w)) ∧
      Hears [.abreast answers'] base (change w) := by
  obtain ⟨list, answer, hlist, hanswer, hpartway⟩ := h.exists_of_action hi
  generalize hm : Act.step change next = m at hpartway
  cases hpartway with
  | answered told => cases hm
  | reading n =>
    cases n with
    | wait ready giveUp next => cases hm
    | step change' next' =>
      cases hm
      exact ⟨answers, h.setReading hlist hanswer _,
        hw.board, hw.tally, hw.journal, hplace.symm, hw.heard⟩
    | done told =>
      -- The reading has come to its end, and puts its answer in its place.
      rw [readingItems_done] at hm
      cases hm
      refine ⟨_, h.set hlist (.answered told), hw.board, hw.tally, hw.journal, hplace.symm, ?_⟩
      show w.storage.heard.modify (w.storage.heard.length - 1) (Heard.put i (told.map .items)) = _
      rw [hw.heard]
      simp [List.modify_eq_take_cons_drop, Heard.put]

theorem Underway.resume (h : Underway lists answers ms) {ready : World (Overheard σ) → Bool}
    {giveUp : World (Overheard σ) → World (Overheard σ)}
    {next : Act (World (Overheard σ)) Checklist} (hi : ms[i]? = some (.wait ready giveUp next)) :
    Underway lists answers (ms.set i next) := by
  obtain ⟨list, answer, hlist, hanswer, hpartway⟩ := h.exists_of_action hi
  generalize hm : Act.wait ready giveUp next = m at hpartway
  cases hpartway with
  | answered told => cases hm
  | reading n =>
    cases n with
    | done told =>
      rw [readingItems_done] at hm
      cases hm
    | step change next => cases hm
    | wait ready' giveUp' next' =>
      cases hm
      exact h.setReading hlist hanswer next'

/--
Whatever order the readings go on in, nothing happens but that storage tells the items.
-/
theorem Underway.of_joins {r : Except Error (List Checklist)} (h : JoinsAmid Elsewhere ms w r w')
    (hms : Underway lists answers ms) (hplace : base.storage.place = none)
    (hw : Hears [.abreast answers] base w) :
    ∃ answers, Hears [.abreast answers] base w' ∧ ReadItems lists answers r := by
  induction h generalizing answers with
  | finished as h => exact ⟨answers, hw.elsewhere h, hms.readItems_ok⟩
  | failed hi hfirst h =>
    -- Nothing that is given up leaves a trace in what is written down.
    have hstill := hms.hears_abandon (hw.place.trans hplace) h
    exact ⟨answers, hw.still hstill, hms.readItems_error hi hfirst⟩
  | step hi _ ih =>
    obtain ⟨answers', hms', hw'⟩ := hms.step hi hplace hw
    exact ih hms' hw'
  | resume hi _ _ ih => exact ih (hms.resume hi) hw
  | others h _ ih => exact ih hms (hw.elsewhere (.single h))

end Readings

def overheard (config : KeeperConfig) (g : Gateway σ)
    (joined : {α : Type} → List (Act (World (Overheard σ)) α) →
      Act (World (Overheard σ)) (List α)) : Keeper (Overheard σ) :=
  ⟨config, g.overheard joined⟩

section FetchAll

variable {config : KeeperConfig} {g : Gateway σ}
variable {joined : {α : Type} → List (Act (World (Overheard σ)) α) →
  Act (World (Overheard σ)) (List α)}
variable {w w' : World (Overheard σ)} {r : Except Error (List Checklist)}

variable (g) in
theorem underway_begun (lists : List Checklist) :
    Underway (σ := σ) lists (List.replicate lists.length none)
      ((lists.map fun list => do
        return list.withItems (← (overheard config g joined).ask (.itemsOf list.id))).mapIdx
          fun place m => m.placed place) := by
  refine ⟨List.length_replicate, by simp, ?_⟩
  intro i list answer m hlist hanswer hm
  rw [List.getElem?_mapIdx, List.getElem?_map, hlist] at hm
  cases hm
  rw [List.getElem?_replicate] at hanswer
  split at hanswer
  · cases hanswer
    exact .reading (g.ask (.itemsOf list.id))
  · cases hanswer

theorem comesTo_readItems (hjoined : JoinsAllAmid Elsewhere joined) (lists : List Checklist)
    (hplace : w.storage.place = none)
    (h : ComesTo Elsewhere ((overheard config g joined).gateway.together (lists.map fun list => do
      return list.withItems (← (overheard config g joined).ask (.itemsOf list.id)))) w r w') :
    ∃ answers, Hears [.abreast answers] w w' ∧ ReadItems lists answers r := by
  cases h with
  | @step _ _ _ w₁ _ _ hothers hnext =>
    have hbefore := hears_of_elsewhere hothers
    have hprepared : Hears [.abreast (List.replicate lists.length none)] w₁
        (w₁.prepare lists.length) := ⟨rfl, rfl, rfl, rfl, rfl⟩
    rw [List.length_map] at hnext
    refine (underway_begun g lists).of_joins (hjoined _ _ _ _ hnext) hplace ?_
    exact hbefore.trans hprepared

theorem comesTo_fetchAll (hjoined : JoinsAllAmid Elsewhere joined) (hplace : w.storage.place = none)
    (h : ComesTo Elsewhere (overheard config g joined).fetchAll w r w') :
    ∃ new, Hears new w w' ∧ ReadAll new r := by
  obtain ⟨told, w₁, hlists, hrest⟩ := ComesTo.continueWith h
  have hhears := comesTo_overheard .allLists hplace hlists
  cases told with
  | error e =>
    cases hrest with
    | done _ hafter => exact ⟨_, hhears.elsewhere hafter, .refused e⟩
  | ok lists =>
    obtain ⟨answers, hitems, hread⟩ :=
      comesTo_readItems hjoined lists (hhears.place.trans hplace) hrest
    exact ⟨_, hhears.trans hitems, .read lists hread⟩

end FetchAll

end Keeper
end ListKeeper
