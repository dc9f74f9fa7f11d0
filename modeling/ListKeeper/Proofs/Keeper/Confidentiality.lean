import ListKeeper.Proofs.Keeper.Mutation
import ListKeeper.Proofs.Keeper.Recording
import Mathlib.Data.List.Forall2

/-!
This module contains what observers can learn about storage: nothing but the values that it gives
and the kinds of its failures. Two runs of the same calls are compared over two storages that differ
only in the ids, names and words of their failures, and in when they answer. The snapshots that they
publish are the same.
-/

namespace ListKeeper

inductive Error.Alike : Error → Error → Prop
  | notFound (kind id id' : String) : Alike (.notFound kind id) (.notFound kind id')
  | verificationFailed (operation entityId operation' entityId' : String) :
    Alike (.verificationFailed operation entityId) (.verificationFailed operation' entityId')
  | persistence (operation source operation' source' : String) :
    Alike (.persistence operation source) (.persistence operation' source')
  | cancelled (id name id' name' : String) : Alike (.cancelled id name) (.cancelled id' name')
  | retriesExhausted (attempts : UInt32) (name source name' source' : String) :
    Alike (.retriesExhausted name attempts source) (.retriesExhausted name' attempts source')
  | invalidConfig (reason reason' : String) : Alike (.invalidConfig reason) (.invalidConfig reason')
  | internal (reason reason' : String) : Alike (.internal reason) (.internal reason')

theorem Error.Alike.refl (e : Error) : e.Alike e := by
  cases e <;> constructor

theorem Error.Alike.userMessage_eq {e e' : Error} (h : e.Alike e') :
    e'.userMessage = e.userMessage := by
  cases h <;> rfl

inductive AlikeBy (same : α → β → Prop) : Except Error α → Except Error β → Prop
  | ok {a : α} {b : β} (h : same a b) : AlikeBy same (.ok a) (.ok b)
  | error {e e' : Error} (h : e.Alike e') : AlikeBy same (.error e) (.error e')

theorem AlikeBy.refl {same : α → α → Prop} (h : ∀ a, same a a) (r : Except Error α) :
    AlikeBy same r r := by
  cases r with
  | ok a => exact .ok (h a)
  | error e => exact .error (.refl e)

theorem AlikeBy.of_answer (request : Request α) {r r' : Except Error α}
    (h : AlikeBy Eq (r.map request.answer) (r'.map request.answer)) : AlikeBy Eq r r' := by
  cases r with
  | ok a =>
    cases r' with
    | ok a' =>
      cases h with
      | ok h => exact .ok (request.answer_inj h)
    | error e' => cases h
  | error e =>
    cases r' with
    | ok a' => cases h
    | error e' =>
      cases h with
      | error h => exact .error h

inductive AlikeAbreast : Option (Except Error Answer) → Option (Except Error Answer) → Prop
  | told {r r' : Except Error Answer} (h : AlikeBy Eq r r') : AlikeAbreast (some r) (some r')
  | givenUp : AlikeAbreast none none
  | givenUpFirst (answer : Answer) : AlikeAbreast none (some (.ok answer))
  | givenUpSecond (answer : Answer) : AlikeAbreast (some (.ok answer)) none

inductive Heard.Alike : Heard → Heard → Prop
  | alone {r r' : Except Error Answer} (h : AlikeBy Eq r r') : Alike (.alone r) (.alone r')
  | abreast {answers answers' : List (Option (Except Error Answer))}
    (h : List.Forall₂ AlikeAbreast answers answers') : Alike (.abreast answers) (.abreast answers')

/--
As far as two records go, what storage told is alike.
-/
def Agree (heard heard' : List Heard) : Prop :=
  ∀ (n : Nat) x x', heard[n]? = some x → heard'[n]? = some x' → x.Alike x'

namespace Agree

variable {heard heard' before before' after after' : List Heard}

theorem nil : Agree [] [] := by
  intro n x x' hx
  cases hx

theorem cons {x x' : Heard} (hx : x.Alike x') (h : Agree heard heard') :
    Agree (x :: heard) (x' :: heard') := by
  intro n y y' hy hy'
  cases n with
  | zero =>
    cases hy
    cases hy'
    exact hx
  | succ n => exact h n y y' hy hy'

theorem of_prefix (h : Agree heard heard') (hbefore : before <+: heard)
    (hbefore' : before' <+: heard') : Agree before before' := by
  intro n x x' hx hx'
  obtain ⟨rest, rfl⟩ := hbefore
  obtain ⟨rest', rfl⟩ := hbefore'
  apply h n x x'
  · rw [List.getElem?_append_left (List.getElem?_eq_some_iff.1 hx).1, hx]
  · rw [List.getElem?_append_left (List.getElem?_eq_some_iff.1 hx').1, hx']

theorem of_append (h : Agree (before ++ after) (before' ++ after'))
    (hlength : before'.length = before.length) : Agree after after' := by
  intro n x x' hx hx'
  apply h (before.length + n) x x'
  · rw [List.getElem?_append_right (Nat.le_add_right _ _), Nat.add_sub_cancel_left, hx]
  · rw [← hlength, List.getElem?_append_right (Nat.le_add_right _ _), Nat.add_sub_cancel_left, hx']

end Agree

theorem exists_of_forall₂ {r : α → β → Prop} {as : List α} {bs : List β} (h : List.Forall₂ r as bs)
    {i : Nat} {a : α} (ha : as[i]? = some a) : ∃ b, bs[i]? = some b ∧ r a b := by
  induction h generalizing i with
  | nil => cases ha
  | @cons a' b' as bs hab _ ih =>
    cases i with
    | zero =>
      cases ha
      exact ⟨b', rfl, hab⟩
    | succ i => exact ih ha

theorem AlikeAbreast.of_error {e : Error} {answer : Option (Except Error Answer)}
    (h : AlikeAbreast (some (.error e)) answer) : ∃ e', answer = some (.error e') ∧ e.Alike e' := by
  cases h with
  | told h =>
    cases h with
    | error h => exact ⟨_, rfl, h⟩

theorem AlikeAbreast.symm_of_error {e' : Error} {answer : Option (Except Error Answer)}
    (h : AlikeAbreast answer (some (.error e'))) : ∃ e, answer = some (.error e) ∧ e.Alike e' := by
  cases h with
  | told h =>
    cases h with
    | error h => exact ⟨_, rfl, h⟩

section Reads

variable {lists : List Checklist} {answers answers' : List (Option (Except Error Answer))}
variable {r r' : Except Error (List Checklist)}

theorem not_error_of_whole {items : List (List Item)} {i : Nat} {e : Error} :
    (items.map fun items => some (.ok (.items items)))[i]? ≠
      some (some (.error e : Except Error Answer)) := by
  intro h
  rw [List.getElem?_map] at h
  obtain ⟨_, _, hfails⟩ := Option.map_eq_some_iff.1 h
  cases hfails

theorem ReadItems.alike (h : ReadItems lists answers r) (h' : ReadItems lists answers' r')
    (halike : List.Forall₂ AlikeAbreast answers answers') : AlikeBy Eq r r' := by
  cases h with
  | @broken _ i e hi hfirst =>
    obtain ⟨answer', hanswer', hfails⟩ := exists_of_forall₂ halike hi
    obtain ⟨e', rfl, he⟩ := hfails.of_error
    cases h' with
    | whole items h => exact absurd hanswer' not_error_of_whole
    | @broken _ i' e'' hi' hfirst' =>
      obtain ⟨answer, hanswer, hfails'⟩ := exists_of_forall₂ halike.flip hi'
      obtain ⟨_, rfl, _⟩ := hfails'.symm_of_error
      -- Each run has failed where the other one has, so neither can be the earlier one.
      have hii' : i = i' := by
        rcases Nat.lt_trichotomy i i' with hlt | heq | hgt
        · exact absurd hanswer' (hfirst' i hlt e')
        · exact heq
        · exact absurd hanswer (hfirst i' hgt _)
      subst hii'
      cases hanswer'.symm.trans hi'
      exact .error he
  | whole items hitems =>
    cases h' with
    | @broken _ i' e' hi' hfirst' =>
      obtain ⟨answer, hanswer, hfails⟩ := exists_of_forall₂ halike.flip hi'
      obtain ⟨e, rfl, _⟩ := hfails.symm_of_error
      exact absurd hanswer not_error_of_whole
    | whole items' hitems' =>
      have hsame : items = items' := by
        rw [List.forall₂_map_left_iff, List.forall₂_map_right_iff] at halike
        rw [← List.forall₂_eq_eq_eq]
        apply halike.imp
        intro a a' ha
        cases ha with
        | told h =>
          cases h with
          | ok h => exact Answer.items.inj h
      rw [hsame]
      exact .ok rfl

theorem ReadAll.alike {new new' : List Heard} (h : ReadAll new r) (h' : ReadAll new' r')
    (hagree : Agree new new') : AlikeBy Eq r r' ∧ new'.length = new.length := by
  cases h with
  | refused e =>
    cases h' with
    | refused e' =>
      cases hagree 0 _ _ rfl rfl with
      | alone h =>
        cases h with
        | error h => exact ⟨.error h, rfl⟩
    | read lists h' =>
      cases hagree 0 _ _ rfl rfl with
      | alone h => cases h
  | read lists h =>
    cases h' with
    | refused e =>
      cases hagree 0 _ _ rfl rfl with
      | alone h => cases h
    | read lists' h' =>
      cases hagree 0 _ _ rfl rfl with
      | alone hlists =>
        cases hlists with
        | ok hlists =>
          cases hlists
          cases hagree 1 _ _ rfl rfl with
          | abreast halike => exact ⟨h.alike h' halike, rfl⟩

end Reads

/--
Two states that observers cannot tell apart, after storage was called as often, and between calls.
-/
structure World.LooksLike (w : World (Overheard σ)) (w' : World (Overheard τ)) : Prop where
  board : w'.board = w.board
  tally : w'.tally = w.tally
  published : w'.published = w.published
  place : w.storage.place = none
  place' : w'.storage.place = none
  heard : w'.storage.heard.length = w.storage.heard.length

structure World.Grows (w w' : World (Overheard σ)) : Prop where
  heard : w.storage.heard <+: w'.storage.heard
  place : w'.storage.place = none

section LooksLike

variable {w w₁ : World (Overheard σ)} {w' w₁' : World (Overheard τ)}

theorem World.LooksLike.snapshot (h : w.LooksLike w') : w'.snapshot = w.snapshot :=
  congrArg Board.snapshot h.board

theorem World.Grows.trans {w w' w'' : World (Overheard σ)} (h : w.Grows w') (h' : w'.Grows w'') :
    w.Grows w'' :=
  ⟨h.heard.trans h'.heard, h'.place⟩

theorem World.Hears.grows {new : List Heard} (h : World.Hears new w w₁)
    (hplace : w.storage.place = none) : w.Grows w₁ := by
  refine ⟨?_, h.place.trans hplace⟩
  rw [h.heard]
  exact List.prefix_append _ _

theorem World.Hears.published {new : List Heard} (h : World.Hears new w w₁) :
    w₁.published = w.published :=
  congrArg (List.filterMap Event.snapshot?) h.journal

theorem World.LooksLike.hears (h : w.LooksLike w') {new new' : List Heard}
    (hnew : World.Hears new w w₁) (hnew' : World.Hears new' w' w₁')
    (hlength : new'.length = new.length) : w₁.LooksLike w₁' := by
  refine ⟨?_, ?_, ?_, hnew.place.trans h.place, hnew'.place.trans h.place', ?_⟩
  · rw [hnew'.board, hnew.board, h.board]
  · rw [hnew'.tally, hnew.tally, h.tally]
  · rw [hnew'.published, hnew.published, h.published]
  · rw [hnew'.heard, hnew.heard, List.length_append, List.length_append, h.heard, hlength]

end LooksLike

open World Act

/--
Two actions that cannot be told apart as long as storage answers them alike: from states that look
alike they come to states that look alike, and their outcomes are alike.
-/
structure Conceals (same : α → α → Prop) (m : Act (World (Overheard σ)) α)
    (m' : Act (World (Overheard τ)) α) : Prop where
  grows : ∀ {w w₁ r}, w.storage.place = none → ComesTo Elsewhere m w r w₁ → w.Grows w₁
  grows' : ∀ {w w₁ r}, w.storage.place = none → ComesTo Elsewhere m' w r w₁ → w.Grows w₁
  alike : ∀ {w w' r r' w₁ w₁'}, w.LooksLike w' → ComesTo Elsewhere m w r w₁ →
    ComesTo Elsewhere m' w' r' w₁' → Agree w₁.storage.heard w₁'.storage.heard →
    AlikeBy same r r' ∧ w₁.LooksLike w₁'

namespace Conceals

variable {same : α → α → Prop} {then' : β → β → Prop}
variable {m : Act (World (Overheard σ)) α} {m' : Act (World (Overheard τ)) α}

theorem ofExcept {r r' : Except Error α} (h : AlikeBy same r r') :
    Conceals same (Act.ofExcept r : Act (World (Overheard σ)) α)
      (Act.ofExcept r' : Act (World (Overheard τ)) α) where
  grows hplace hrun := by
    cases hrun with
    | done _ hothers => exact (hears_of_elsewhere hothers).grows hplace
  grows' hplace hrun := by
    cases hrun with
    | done _ hothers => exact (hears_of_elsewhere hothers).grows hplace
  alike hw hrun hrun' _ := by
    cases hrun with
    | done _ hothers =>
      cases hrun' with
      | done _ hothers' =>
        exact ⟨h, hw.hears (hears_of_elsewhere hothers) (hears_of_elsewhere hothers') rfl⟩

theorem pure {a a' : α} (h : same a a') :
    Conceals same (Pure.pure a : Act (World (Overheard σ)) α)
      (Pure.pure a' : Act (World (Overheard τ)) α) :=
  ofExcept (.ok h)

theorem fail {e e' : Error} (h : e.Alike e') :
    Conceals same (Act.fail e : Act (World (Overheard σ)) α)
      (Act.fail e' : Act (World (Overheard τ)) α) :=
  ofExcept (.error h)

theorem grows_atomic {f : World (Overheard σ) → Except Error α × World (Overheard σ)}
    (hstorage : ∀ w, (f w).2.storage = w.storage) {w w₁ : World (Overheard σ)}
    {r : Except Error α} (hplace : w.storage.place = none)
    (hrun : ComesTo Elsewhere (Act.atomic f) w r w₁) : w.Grows w₁ := by
  obtain ⟨w₂, hbefore, _, hafter⟩ := comesTo_atomic hrun
  have hbefore := (hears_of_elsewhere hbefore).grows hplace
  have hchange : w₂.Grows (f w₂).2 := by
    have hheard : (f w₂).2.storage.heard = w₂.storage.heard := congrArg (·.heard) (hstorage w₂)
    exact ⟨hheard ▸ List.prefix_rfl, (congrArg (·.place) (hstorage w₂)).trans hbefore.place⟩
  exact (hbefore.trans hchange).trans ((hears_of_elsewhere hafter).grows hchange.place)

theorem atomic {f : World (Overheard σ) → Except Error α × World (Overheard σ)}
    {f' : World (Overheard τ) → Except Error α × World (Overheard τ)}
    (hstorage : ∀ w, (f w).2.storage = w.storage) (hstorage' : ∀ w, (f' w).2.storage = w.storage)
    (h : ∀ {w w'}, w.LooksLike w' → AlikeBy same (f w).1 (f' w').1 ∧
      (f' w').2.board = (f w).2.board ∧ (f' w').2.tally = (f w).2.tally ∧
      (f' w').2.published = (f w).2.published) :
    Conceals same (Act.atomic f) (Act.atomic f') where
  grows := grows_atomic hstorage
  grows' := grows_atomic hstorage'
  alike hw hrun hrun' _ := by
    obtain ⟨w₁, hbefore, rfl, hafter⟩ := comesTo_atomic hrun
    obtain ⟨w₁', hbefore', rfl, hafter'⟩ := comesTo_atomic hrun'
    have hw₁ := hw.hears (hears_of_elsewhere hbefore) (hears_of_elsewhere hbefore') rfl
    obtain ⟨hsame, hboard, htally, hpublished⟩ := h hw₁
    refine ⟨hsame, .hears ⟨hboard, htally, hpublished, ?_, ?_, ?_⟩ (hears_of_elsewhere hafter)
      (hears_of_elsewhere hafter') rfl⟩
    · rw [hstorage, hw₁.place]
    · rw [hstorage', hw₁.place']
    · rw [hstorage, hstorage', hw₁.heard]

theorem observe {event event' : Event} (h : event.snapshot? = none) (h' : event'.snapshot? = none) :
    Conceals Eq (Act.modify (World.observe · event) : Act (World (Overheard σ)) Unit)
      (Act.modify (World.observe · event') : Act (World (Overheard τ)) Unit) := by
  show Conceals Eq (Act.atomic fun w => (.ok (), w.observe event))
    (Act.atomic fun w => (.ok (), w.observe event'))
  apply atomic (fun _ => rfl) (fun _ => rfl)
  intro w w' hw
  refine ⟨.ok rfl, hw.board, hw.tally, ?_⟩
  rw [World.published_observe, World.published_observe, h, h', hw.published]

theorem notice (n n' : Notice) :
    Conceals Eq (Act.notice n : Act (World (Overheard σ)) Unit)
      (Act.notice n' : Act (World (Overheard τ)) Unit) :=
  observe rfl rfl

theorem count (f : Tally → Tally) :
    Conceals Eq (Act.count f : Act (World (Overheard σ)) Unit)
      (Act.count f : Act (World (Overheard τ)) Unit) := by
  show Conceals Eq (Act.atomic fun w => (.ok (), { w with tally := f w.tally }))
    (Act.atomic fun w => (.ok (), { w with tally := f w.tally }))
  exact atomic (fun _ => rfl) (fun _ => rfl)
    fun hw => ⟨.ok rfl, hw.board, congrArg f hw.tally, hw.published⟩

theorem snapshot :
    Conceals Eq (Act.snapshot : Act (World (Overheard σ)) Snapshot)
      (Act.snapshot : Act (World (Overheard τ)) Snapshot) :=
  atomic (fun _ => rfl) (fun _ => rfl)
    fun hw => ⟨.ok hw.snapshot.symm, hw.board, hw.tally, hw.published⟩

theorem publishing (result : Snapshot → Snapshot → Except Error α) (edit : Draft → Draft)
    (hsame : ∀ a, same a a) :
    Conceals same
      (Act.atomic fun w => (result w.snapshot (w.publish edit).snapshot, w.publish edit) :
        Act (World (Overheard σ)) α)
      (Act.atomic fun w => (result w.snapshot (w.publish edit).snapshot, w.publish edit) :
        Act (World (Overheard τ)) α) := by
  apply atomic (fun _ => rfl) (fun _ => rfl)
  intro w w' hw
  have hboard : (w'.publish edit).board = (w.publish edit).board :=
    congrArg (Board.publish · edit) hw.board
  have hsnapshot : (w'.publish edit).snapshot = (w.publish edit).snapshot :=
    congrArg Board.snapshot hboard
  refine ⟨?_, hboard, hw.tally, ?_⟩
  · rw [hw.snapshot, hsnapshot]
    exact .refl hsame _
  · rw [World.published_publish, World.published_publish, hw.published, hsnapshot]

theorem publish (edit : Draft → Draft) :
    Conceals Eq (Act.publish edit : Act (World (Overheard σ)) Snapshot)
      (Act.publish edit : Act (World (Overheard τ)) Snapshot) :=
  publishing (fun _ s => .ok s) edit fun _ => rfl

theorem continueWith {f : Except Error α → Act (World (Overheard σ)) β}
    {f' : Except Error α → Act (World (Overheard τ)) β} (hsame : ∀ a, same a a)
    (hm : Conceals same m m') (hf : ∀ r r', AlikeBy same r r' → Conceals then' (f r) (f' r')) :
    Conceals then' (m.continueWith f) (m'.continueWith f') where
  grows hplace hrun := by
    obtain ⟨r₁, w₁, hfirst, hrest⟩ := hrun.continueWith
    have hgrows := hm.grows hplace hfirst
    exact hgrows.trans ((hf r₁ r₁ (.refl hsame r₁)).grows hgrows.place hrest)
  grows' hplace hrun := by
    obtain ⟨r₁, w₁, hfirst, hrest⟩ := hrun.continueWith
    have hgrows := hm.grows' hplace hfirst
    exact hgrows.trans ((hf r₁ r₁ (.refl hsame r₁)).grows' hgrows.place hrest)
  alike {w w' r r' w₂ w₂'} hw hrun hrun' hagree := by
    obtain ⟨r₁, w₁, hfirst, hrest⟩ := hrun.continueWith
    obtain ⟨r₁', w₁', hfirst', hrest'⟩ := hrun'.continueWith
    have hplace := (hm.grows hw.place hfirst).place
    have hplace' := (hm.grows' hw.place' hfirst').place
    -- What follows hears at least what was heard before, so that was alike as well.
    have hgrows := (hf r₁ r₁ (.refl hsame r₁)).grows hplace hrest
    have hgrows' := (hf r₁' r₁' (.refl hsame r₁')).grows' hplace' hrest'
    obtain ⟨hresult, hlooks⟩ :=
      hm.alike hw hfirst hfirst' (hagree.of_prefix hgrows.heard hgrows'.heard)
    exact (hf r₁ r₁' hresult).alike hlooks hrest hrest' hagree

theorem bind {f : α → Act (World (Overheard σ)) β} {f' : α → Act (World (Overheard τ)) β}
    (hsame : ∀ a, same a a) (hm : Conceals same m m')
    (hf : ∀ a a', same a a' → Conceals then' (f a) (f' a')) :
    Conceals then' (m >>= f) (m' >>= f') := by
  refine continueWith hsame hm fun r r' hr => ?_
  cases hr with
  | ok h => exact hf _ _ h
  | error h => exact fail h

theorem outcome (hsame : ∀ a, same a a) (hm : Conceals same m m') :
    Conceals (AlikeBy same) m.outcome m'.outcome :=
  continueWith hsame hm fun _ _ h => pure h

theorem each {f : γ → Act (World (Overheard σ)) Unit} {f' : γ → Act (World (Overheard τ)) Unit}
    (hf : ∀ c, Conceals Eq (f c) (f' c)) (cs : List γ) :
    Conceals Eq (Act.each f cs) (Act.each f' cs) := by
  induction cs with
  | nil => exact pure rfl
  | cons c cs ih => exact (hf c).bind (fun _ => rfl) fun _ _ _ => ih

end Conceals

namespace Keeper

section Shape

variable {m : Act (World (Overheard σ)) α} {m' : Act (World (Overheard τ)) α}

theorem conceals_showing (edit : Draft → Draft) :
    Conceals Eq (do let _ ← Act.publish edit : Act (World (Overheard σ)) Unit)
      (do let _ ← Act.publish edit : Act (World (Overheard τ)) Unit) :=
  (Conceals.publish edit).bind (fun _ => rfl) fun _ _ _ => .pure rfl

theorem conceals_reportFailure (operation : String) {e e' : Error} (h : e.Alike e')
    (edit : Draft → Draft) :
    Conceals Eq (reportFailure operation e edit : Act (World (Overheard σ)) Unit)
      (reportFailure operation e' edit : Act (World (Overheard τ)) Unit) := by
  unfold reportFailure
  refine (Conceals.observe rfl rfl).bind (fun _ => rfl) fun _ _ _ => ?_
  rw [h.userMessage_eq]
  exact conceals_showing _

theorem conceals_settle (operation : String) (hm : Conceals Eq m m') :
    Conceals Eq (settle operation m) (settle operation m') := by
  unfold settle
  refine (hm.outcome fun _ => rfl).bind (AlikeBy.refl fun _ => rfl) fun r r' hr => ?_
  cases hr with
  | ok h => exact .pure h
  | error h =>
    exact (conceals_reportFailure operation h id).bind (fun _ => rfl) fun _ _ _ => .fail h

theorem conceals_compensate (operation : String) {e e' : Error}
    {compensation : Act (World (Overheard σ)) Unit}
    {compensation' : Act (World (Overheard τ)) Unit} (h : Conceals Eq compensation compensation') :
    Conceals Eq (compensate operation e compensation) (compensate operation e' compensation') := by
  unfold compensate
  refine (Conceals.notice _ _).bind (fun _ => rfl) fun _ _ _ => ?_
  refine (h.outcome fun _ => rfl).bind (AlikeBy.refl fun _ => rfl) fun r r' hr => ?_
  cases hr with
  | ok h => exact (Conceals.pure h).bind (fun _ => rfl) fun _ _ _ => .count _
  | error _ =>
    refine (Conceals.count _).bind (fun _ => rfl) fun _ _ _ => ?_
    exact (Conceals.notice _ _).bind (fun _ => rfl) fun _ _ _ => .count _

def AlikeMade (r r' : Except Error α × Nat) : Prop :=
  AlikeBy Eq r.1 r'.1 ∧ r.2 = r'.2

theorem AlikeMade.refl (r : Except Error α × Nat) : AlikeMade r r :=
  ⟨.refl (fun _ => rfl) r.1, rfl⟩

theorem conceals_transactTracking (operation : String)
    {forward : Act (World (Overheard σ)) (Except Error α × Nat)}
    {forward' : Act (World (Overheard τ)) (Except Error α × Nat)}
    {compensation : Nat → Act (World (Overheard σ)) Unit}
    {compensation' : Nat → Act (World (Overheard τ)) Unit}
    (hforward : Conceals AlikeMade forward forward')
    (hcompensation : ∀ made, Conceals Eq (compensation made) (compensation' made)) :
    Conceals Eq (transactTracking operation forward compensation)
      (transactTracking operation forward' compensation') := by
  unfold transactTracking
  refine hforward.bind AlikeMade.refl ?_
  rintro ⟨r, made⟩ ⟨r', made'⟩ ⟨hr, hmade⟩
  cases hmade
  cases hr with
  | ok h => exact (Conceals.count _).bind (fun _ => rfl) fun _ _ _ => .pure h
  | error h =>
    exact (conceals_compensate operation (hcompensation made)).bind (fun _ => rfl)
      fun _ _ _ => .fail h

end Shape

section Calls

variable {config : KeeperConfig} {g : Gateway σ} {g' : Gateway τ}
variable {joined : {α : Type} → List (Act (World (Overheard σ)) α) →
  Act (World (Overheard σ)) (List α)}
variable {joined' : {α : Type} → List (Act (World (Overheard τ)) α) →
  Act (World (Overheard τ)) (List α)}

theorem conceals_ask (request : Request α) :
    Conceals Eq ((overheard config g joined).ask request)
      ((overheard config g' joined').ask request) where
  grows hplace hrun := (comesTo_overheard request hplace hrun).grows hplace
  grows' hplace hrun := (comesTo_overheard request hplace hrun).grows hplace
  alike hw hrun hrun' hagree := by
    have hheard := comesTo_overheard request hw.place hrun
    have hheard' := comesTo_overheard request hw.place' hrun'
    rw [hheard.heard, hheard'.heard] at hagree
    refine ⟨?_, hw.hears hheard hheard' rfl⟩
    cases hagree.of_append hw.heard 0 _ _ rfl rfl with
    | alone h => exact .of_answer request h

/--
Reads that go on side by side may be answered in any order. What comes of them follows from the
answers at each place.
-/
theorem conceals_fetchAll (hjoined : JoinsAllAmid Elsewhere joined)
    (hjoined' : JoinsAllAmid Elsewhere joined') :
    Conceals Eq (overheard config g joined).fetchAll (overheard config g' joined').fetchAll where
  grows hplace hrun := by
    obtain ⟨new, hheard, _⟩ := comesTo_fetchAll hjoined hplace hrun
    exact hheard.grows hplace
  grows' hplace hrun := by
    obtain ⟨new, hheard, _⟩ := comesTo_fetchAll hjoined' hplace hrun
    exact hheard.grows hplace
  alike hw hrun hrun' hagree := by
    obtain ⟨new, hheard, hread⟩ := comesTo_fetchAll hjoined hw.place hrun
    obtain ⟨new', hheard', hread'⟩ := comesTo_fetchAll hjoined' hw.place' hrun'
    rw [hheard.heard, hheard'.heard] at hagree
    obtain ⟨halike, hlength⟩ := hread.alike hread' (hagree.of_append hw.heard)
    exact ⟨halike, hw.hears hheard hheard' hlength⟩

theorem conceals_writeAll (changes : List Write) :
    Conceals AlikeMade ((overheard config g joined).writeAll changes)
      ((overheard config g' joined').writeAll changes) := by
  induction changes with
  | nil => exact .pure ⟨.ok rfl, rfl⟩
  | cons change rest ih =>
    unfold writeAll
    refine ((conceals_ask change.request).outcome fun _ => rfl).bind
      (AlikeBy.refl fun _ => rfl) fun r r' hr => ?_
    cases hr with
    | error h => exact .pure ⟨.error h, rfl⟩
    | ok _ =>
      refine ih.bind AlikeMade.refl ?_
      rintro ⟨r, made⟩ ⟨r', made'⟩ ⟨hr, hmade⟩
      exact .pure ⟨hr, congrArg (· + 1) hmade⟩

theorem conceals_verify (verified : Option (Change × String)) :
    Conceals Eq ((overheard config g joined).verify verified)
      ((overheard config g' joined').verify verified) := by
  unfold verify
  split
  · next change id =>
    unfold verifyWrite
    show Conceals Eq (if config.verifyWrites = true then _ else _)
      (if config.verifyWrites = true then _ else _)
    split
    · refine (conceals_ask (.verify change id)).bind (fun _ => rfl) fun yes yes' h => ?_
      cases h
      split
      · exact .pure rfl
      · exact .fail (.refl _)
    · exact .pure rfl
  · exact .pure rfl

theorem conceals_forward (plan : Plan) :
    Conceals AlikeMade ((overheard config g joined).forward plan)
      ((overheard config g' joined').forward plan) := by
  unfold forward
  refine (conceals_writeAll plan.changes).bind AlikeMade.refl ?_
  rintro ⟨r, made⟩ ⟨r', made'⟩ ⟨hr, hmade⟩
  cases hmade
  cases hr with
  | error h => exact .pure ⟨.error h, rfl⟩
  | ok _ =>
    refine Conceals.bind (AlikeBy.refl fun _ => rfl) (.outcome (fun _ => rfl) ?_)
      fun r r' hr => .pure ⟨hr, rfl⟩
    exact (conceals_verify plan.verified).bind (fun _ => rfl) fun _ _ _ =>
      Conceals.publishing (fun s _ => plan.shown.outcome s) _ fun _ => rfl

variable (hjoined : JoinsAllAmid Elsewhere joined) (hjoined' : JoinsAllAmid Elsewhere joined')
include hjoined hjoined'

theorem conceals_reread (lists : List Checklist) :
    Conceals Eq ((overheard config g joined).reread lists)
      ((overheard config g' joined').reread lists) := by
  unfold reread
  show Conceals Eq (if config.reloadAfterClearRollback = true then _ else _)
    (if config.reloadAfterClearRollback = true then _ else _)
  split
  · exact conceals_fetchAll hjoined hjoined'
  · exact .pure rfl

theorem conceals_undo (plan : Plan) (made : Nat) :
    Conceals Eq ((overheard config g joined).undo plan made)
      ((overheard config g' joined').undo plan made) := by
  unfold undo
  refine (Conceals.each (fun change => conceals_ask (Write.request change)) _).bind
    (fun _ => rfl) fun _ _ _ => ?_
  unfold publishRestoring
  split
  · exact .pure rfl
  · exact conceals_showing _
  · refine (conceals_reread hjoined hjoined' _).bind (fun _ => rfl) fun lists lists' h => ?_
    rw [h]
    exact conceals_showing _

theorem conceals_carryOut (m : Mutation) :
    Conceals Eq ((overheard config g joined).carryOut m)
      ((overheard config g' joined').carryOut m) := by
  unfold carryOut
  refine (Conceals.observe rfl rfl).bind (fun _ => rfl) fun _ _ _ => ?_
  refine Conceals.snapshot.bind (fun _ => rfl) fun s s' hs => ?_
  cases hs
  refine Conceals.bind (fun _ => rfl) (conceals_settle m.operation ?_) fun _ _ _ => ?_
  · have hchecked : AlikeBy Eq (m.plan s) (m.plan s) := .refl (fun _ => rfl) _
    refine (Conceals.ofExcept hchecked).bind (fun _ => rfl) fun plan plan' hplan => ?_
    cases hplan
    exact conceals_transactTracking m.operation (conceals_forward plan)
      (conceals_undo hjoined hjoined' plan)
  · refine (Conceals.each (fun n => Conceals.notice n n) _).bind (fun _ => rfl) fun _ _ _ => ?_
    refine Conceals.snapshot.bind (fun _ => rfl) fun s s' hs => ?_
    rw [hs]
    exact .pure rfl

theorem conceals_loadAll :
    Conceals Eq (overheard config g joined).loadAll (overheard config g' joined').loadAll := by
  unfold loadAll
  refine (Conceals.observe rfl rfl).bind (fun _ => rfl) fun _ _ _ => ?_
  refine (Conceals.publish _).bind (fun _ => rfl) fun _ _ _ => ?_
  refine ((conceals_fetchAll hjoined hjoined').outcome fun _ => rfl).bind
    (AlikeBy.refl fun _ => rfl) fun r r' hr => ?_
  cases hr with
  | ok hlists =>
    cases hlists
    refine (Conceals.publish _).bind (fun _ => rfl) fun s s' hs => ?_
    rw [hs]
    exact (Conceals.notice _ _).bind (fun _ => rfl) fun _ _ _ => .pure rfl
  | error h =>
    exact (conceals_reportFailure _ h _).bind (fun _ => rfl) fun _ _ _ => .fail h

theorem conceals_perform (call : Call) :
    Conceals Eq ((overheard config g joined).perform call)
      ((overheard config g' joined').perform call) := by
  have hversion {m : Act (World (Overheard σ)) Snapshot} {m' : Act (World (Overheard τ)) Snapshot}
      (h : Conceals Eq m m') :
      Conceals Eq (do return Reply.version (← m).version) (do return .version (← m').version) := by
    refine h.bind (fun _ => rfl) fun s s' hs => ?_
    rw [hs]
    exact .pure rfl
  by_cases hcall : call.isMutation = true
  · obtain ⟨m, hm⟩ := Call.exists_mutation hcall
    rw [perform_eq_carryOut hm, perform_eq_carryOut hm]
    exact conceals_carryOut hjoined hjoined' m
  · cases call with
    | loadAll => exact hversion (conceals_loadAll hjoined hjoined')
    | setPeriodText text =>
      apply hversion
      unfold setPeriodText
      split
      · exact Conceals.publish _
      · split
        · exact Conceals.publish _
        · exact .fail (.refl _)
    | reset => exact hversion (Conceals.publish _)
    | setQuery query => exact hversion (Conceals.publish _)
    | setTopic topic => exact hversion (Conceals.publish _)
    | setShowCompleted shown => exact hversion (Conceals.publish _)
    | setShowInProgress shown => exact hversion (Conceals.publish _)
    | setPeriod period => exact hversion (Conceals.publish _)
    | setOrder order => exact hversion (Conceals.publish _)
    | resetCriteria => exact hversion (Conceals.publish _)
    | _ => exact absurd rfl hcall

end Calls

/--
A run of calls, one after the other, comes to a state while others change the storage. Failures of
calls do not end the run.
-/
inductive Runs (k : Keeper (Overheard σ)) :
    List Call → World (Overheard σ) → World (Overheard σ) → Prop
  | nil (w : World (Overheard σ)) : Runs k [] w w
  | cons {call : Call} {rest : List Call} {r : Except Error Reply}
    {w w₁ w' : World (Overheard σ)} (h : ComesTo Elsewhere (k.perform call) w r w₁)
    (hrest : Runs k rest w₁ w') : Runs k (call :: rest) w w'

theorem Runs.of_run {k : Keeper (Overheard σ)} {call : Call} {rest : List Call}
    {w : World (Overheard σ)} (h : (k.perform call).isReadyThroughout w = true)
    (hrest : Runs k rest ((k.perform call).run w).2 (k.run rest ((k.perform call).run w).2)) :
    Runs k (call :: rest) w (k.run (call :: rest) w) :=
  .cons (comesTo_run h) hrest

section Run

variable {config : KeeperConfig} {g : Gateway σ} {g' : Gateway τ}
variable {joined : {α : Type} → List (Act (World (Overheard σ)) α) →
  Act (World (Overheard σ)) (List α)}
variable {joined' : {α : Type} → List (Act (World (Overheard τ)) α) →
  Act (World (Overheard τ)) (List α)}

theorem grows_runs (hjoined : JoinsAllAmid Elsewhere joined) {calls : List Call}
    {w w' : World (Overheard σ)} (h : (overheard config g joined).Runs calls w w')
    (hplace : w.storage.place = none) : w.Grows w' := by
  induction h with
  | nil w => exact ⟨List.prefix_rfl, hplace⟩
  | @cons call _ _ _ _ _ h _ ih =>
    have hcall : Conceals Eq ((overheard config g joined).perform call)
        ((overheard config g joined).perform call) := conceals_perform hjoined hjoined call
    have hgrows := hcall.grows hplace h
    exact hgrows.trans (ih hgrows.place)

theorem looksLike_runs (hjoined : JoinsAllAmid Elsewhere joined)
    (hjoined' : JoinsAllAmid Elsewhere joined') {calls : List Call}
    {w w₁ : World (Overheard σ)} {w' w₁' : World (Overheard τ)} (hw : w.LooksLike w')
    (h : (overheard config g joined).Runs calls w w₁)
    (h' : (overheard config g' joined').Runs calls w' w₁')
    (hagree : Agree w₁.storage.heard w₁'.storage.heard) : w₁.LooksLike w₁' := by
  induction h generalizing w' with
  | nil w =>
    cases h' with
    | nil => exact hw
  | @cons call _ _ _ _ _ hcall hrest ih =>
    cases h' with
    | cons hcall' hrest' =>
      have hconceals : Conceals Eq ((overheard config g joined).perform call)
          ((overheard config g' joined').perform call) := conceals_perform hjoined hjoined' call
      have hgrows := grows_runs hjoined hrest (hconceals.grows hw.place hcall).place
      have hgrows' := grows_runs hjoined' hrest' (hconceals.grows' hw.place' hcall').place
      have hfirst := hagree.of_prefix hgrows.heard hgrows'.heard
      exact ih (hconceals.alike hw hcall hcall' hfirst).2 hrest' hagree

end Run

section Concealed

variable {joined : {α : Type} → List (Act (World (Overheard σ)) α) →
  Act (World (Overheard σ)) (List α)}
variable {joined' : {α : Type} → List (Act (World (Overheard τ)) α) →
  Act (World (Overheard τ)) (List α)}

/--
The same calls are made over two storages, which may let them wait and answer reads that go on side
by side in any order. Both give the same values and fail in the same calls and in the same way, with
whatever ids, names and words. Then the same snapshots are published, and transactions are counted
in the same way.
-/
theorem run_concealed (hjoined : JoinsAllAmid Elsewhere joined)
    (hjoined' : JoinsAllAmid Elsewhere joined') (config : KeeperConfig) (now : Timestamp)
    (calls : List Call) (g : Gateway σ) (g' : Gateway τ) (s : σ) (s' : τ)
    {w : World (Overheard σ)} {w' : World (Overheard τ)}
    (h : (overheard config g joined).Runs calls (.initial now ⟨s, none, []⟩) w)
    (h' : (overheard config g' joined').Runs calls (.initial now ⟨s', none, []⟩) w')
    (hagree : Agree w.storage.heard w'.storage.heard) :
    w'.published = w.published ∧ w'.snapshot = w.snapshot ∧ w'.tally = w.tally := by
  have hinitial : (World.initial now (⟨s, none, []⟩ : Overheard σ)).LooksLike
      (World.initial now (⟨s', none, []⟩ : Overheard τ)) := ⟨rfl, rfl, rfl, rfl, rfl, rfl⟩
  have hlooks : w.LooksLike w' := looksLike_runs hjoined hjoined' hinitial h h' hagree
  exact ⟨hlooks.published, hlooks.snapshot, hlooks.tally⟩

end Concealed

/--
The items of one list cannot be read, and once that is known only after those of the other list are
read, and once before. An item is refused, and then also to remove its list. Once storage tells where
its files are, and once it does not. Everything works again in the end.
-/
theorem run_concealed_words :
    let joined := fun {α} (ms : List (Act (World (Overheard (List Fate))) α)) =>
      Act.inPasses Roster.turnLimit ms
    let milk := Item.create "i" "Milk" "a" .epoch
    let tea := Checklist.create "a" "Tea" .epoch
    let trip := Checklist.create "b" "Trip" .epoch
    let g := Gateway.holding [tea.withItems [milk], trip]
    let fates := [.served, .served,
      .refused (.persistence "get_items_by_list" "/home/a: no such file"), .served,
      .refused (.persistence "save_item" "/home/a: disk full"), .refused (.notFound "list" "c")]
    let fates' := [.served, .refused (.persistence "read" "no"), .served,
      .refused (.persistence "write" "no"), .refused (.notFound "list" "")]
    let full := (Checklist.create "c" "Food" .epoch).withItems [Item.create "j" "Rice" "c" .epoch]
    let calls := [.loadAll, .createList full, .loadAll, .createList full]
    let k := overheard .initial (g.pausing "a") joined
    let k' := overheard .initial (g.pausing "b") joined
    let w := k.run calls (World.initial .epoch ⟨fates, none, []⟩)
    let w' := k'.run calls (World.initial .epoch ⟨fates', none, []⟩)
    JoinsAllAmid World.Elsewhere joined ∧
      k.Runs calls (World.initial .epoch ⟨fates, none, []⟩) w ∧
      k'.Runs calls (World.initial .epoch ⟨fates', none, []⟩) w' ∧
      Agree w.storage.heard w'.storage.heard ∧ w.storage.heard ≠ w'.storage.heard ∧
      w.tally = ⟨1, 1, 1⟩ ∧ w.snapshot.lists = [tea.withItems [milk], trip, full] ∧
      w'.published = w.published ∧ w'.snapshot = w.snapshot ∧ w'.tally = w.tally := by
  intro joined milk tea trip g fates fates' full calls k k' w w'
  have hjoined : JoinsAllAmid World.Elsewhere joined := joinsAllAmid_inPasses _
  have hruns : k.Runs calls (World.initial .epoch ⟨fates, none, []⟩) w :=
    .of_run (by decide +kernel) <| .of_run (by decide +kernel) <|
      .of_run (by decide +kernel) <| .of_run (by decide +kernel) (.nil _)
  have hruns' : k'.Runs calls (World.initial .epoch ⟨fates', none, []⟩) w' :=
    .of_run (by decide +kernel) <| .of_run (by decide +kernel) <|
      .of_run (by decide +kernel) <| .of_run (by decide +kernel) (.nil _)
  have hheard : w.storage.heard = [.alone (.ok (.lists [tea, trip])),
      .abreast [some (.error (.persistence "get_items_by_list" "/home/a: no such file")),
        some (.ok (.items []))], .alone (.ok .done),
      .alone (.error (.persistence "save_item" "/home/a: disk full")),
      .alone (.error (.notFound "list" "c")), .alone (.ok (.lists [tea, trip])),
      .abreast [some (.ok (.items [milk])), some (.ok (.items []))],
      .alone (.ok .done), .alone (.ok .done), .alone (.ok (.confirmed true))] := by decide +kernel
  have hheard' : w'.storage.heard = [.alone (.ok (.lists [tea, trip])),
      .abreast [some (.error (.persistence "read" "no")), none], .alone (.ok .done),
      .alone (.error (.persistence "write" "no")), .alone (.error (.notFound "list" "")),
      .alone (.ok (.lists [tea, trip])),
      .abreast [some (.ok (.items [milk])), some (.ok (.items []))],
      .alone (.ok .done), .alone (.ok .done), .alone (.ok (.confirmed true))] := by decide +kernel
  have hagree : Agree w.storage.heard w'.storage.heard := by
    rw [hheard, hheard']
    refine .cons (.alone (.ok rfl)) <| .cons (.abreast ?_) <| .cons (.alone (.ok rfl)) <|
      .cons (.alone (.error (.persistence ..))) <| .cons (.alone (.error (.notFound ..))) <|
      .cons (.alone (.ok rfl)) <| .cons (.abreast ?_) <| .cons (.alone (.ok rfl)) <|
      .cons (.alone (.ok rfl)) <| .cons (.alone (.ok rfl)) .nil
    · exact .cons (.told (.error (.persistence ..))) (.cons (.givenUpSecond _) .nil)
    · exact .cons (.told (.ok rfl)) (.cons (.told (.ok rfl)) .nil)
  refine ⟨hjoined, hruns, hruns', hagree, ?_, by decide +kernel, by decide +kernel,
    run_concealed hjoined hjoined .initial .epoch calls _ _ fates fates' hruns hruns' hagree⟩
  rw [hheard, hheard']
  decide

end Keeper
end ListKeeper
