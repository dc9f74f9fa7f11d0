import ListKeeper.Proofs.Keeper.Atomicity
import ListKeeper.Proofs.Storage.Fault
import ListKeeper.Storage.DataFile

/-!
This module contains that updating a list cannot change items. The items that the caller's list
happens to carry reach neither storage nor what is shown, whether the update succeeds or is undone,
and the items that a list has stay with it.
-/

namespace ListKeeper

def Snapshot.holdings (s : Snapshot) : List (String × List Item) :=
  s.lists.map fun list => (list.id, list.items)

structure Gateway.SavesBare (g : Gateway σ) (content : σ → Image) : Prop where
  bare : ∀ list, g.ask (.saveList list.withoutItems) = g.ask (.saveList list)
  items : ∀ list s, (content ((g.ask (.saveList list)).run s).2).items = (content s).items

theorem FaultyStore.savesBare_gateway : FaultyStore.gateway.SavesBare FaultyStore.image where
  bare _ := rfl
  items list s := by
    show (s.answer (.saveList list)).2.image.items = s.image.items
    unfold answer
    split <;> rfl

theorem DataFile.savesBare_gateway : DataFile.gateway.SavesBare fun s => s.1.image where
  bare _ := rfl
  items list s := by
    show (s.1.serve s.2 (.saveList list)).2.1.image.items = s.1.image.items
    simp only [serve, Request.isWrite, ↓reduceIte]
    rcases (s.2.replace s.1.path (s.1.textAfter (.saveList list))).1 with _ | _
    · rfl
    · rfl

namespace Keeper

open World

def updating (list : Checklist) (d : Draft) : Draft :=
  let (found, d) := d.modify list.id fun entry => list.withItems entry.items
  { if found then d else d.upsert list.withoutItems with error := none }

def restoring (k : Keeper σ) (former : Checklist) : Act (World σ) Unit := do
  k.ask (.saveList former)
  let _ ← Act.publish fun d => (d.modify former.id fun _ => former).2

variable {content : σ → Image} (k : Keeper σ) (list : Checklist) (w : World σ)

def announced : World σ :=
  w.observe (.entered ⟨"orchestrator.update_list", [("list_id", .str list.id)]⟩)

theorem run_forward_single {plan : Plan} (hchanges : plan.changes = [.saveList list])
    (hverified : plan.verified = none) :
    (k.forward plan).run w =
      match (k.ask (.saveList list)).run w with
      | (.ok (), w₁) => (.ok (plan.shown.outcome w₁.snapshot, 1), w₁.publish plan.shown.draft)
      | (.error e, w₁) => (.ok (.error e, 0), w₁) := by
  unfold forward writeAll
  rw [hchanges, hverified, Act.run_bind, Act.run_bind, Act.run_outcome]
  have hwrite : k.write (.saveList list) = k.ask (.saveList list) := rfl
  rw [hwrite]
  rcases (k.ask (.saveList list)).run w with ⟨e | _, w₁⟩
  · rfl
  · rfl

theorem run_undo_single {plan : Plan} {former : Checklist} (made : Nat)
    (hundoing : plan.undoing made = [.saveList former])
    (hrestored : plan.restored = .edit fun d => (d.modify former.id fun _ => former).2) :
    (k.undo plan made).run w = (k.restoring former).run w := by
  unfold undo restoring publishRestoring
  rw [hundoing, hrestored, Act.run_bind, Act.run_bind]
  rw [Act.run_each_cons]
  have hwrite : k.write (.saveList former) = k.ask (.saveList former) := rfl
  rw [hwrite]
  rcases (k.ask (.saveList former)).run w with ⟨e | _, w₁⟩
  · rfl
  · rfl

theorem run_updateList :
    (k.perform (.updateList list)).run w =
      match (k.ask (.saveList list)).run (announced list w) with
      | (.ok (), w₁) =>
        let w₂ := (w₁.publish (updating list)).counted Tally.commit
        (.ok (.list ((w₂.snapshot.findList? list.id).getD list.withoutItems)), w₂)
      | (.error e, w₁) =>
        let former := (w.snapshot.findList? list.id).getD list
        let (outcome, w₂) :=
          (k.restoring former).run (w₁.notice (.compensating "update_list" e))
        (.error e, (w₂.undone "update_list" e outcome).reporting "update_list" e) := by
  have hforward (plan : Plan) (hchanges : plan.changes = [.saveList list])
      (hverified : plan.verified = none) :=
    run_forward_single k list (announced list w) hchanges hverified
  rcases hask : (k.ask (.saveList list)).run (announced list w) with ⟨e | _, w₁⟩
  · rw [hask] at hforward
    dsimp only
    rcases hrestore : (k.restoring ((w.snapshot.findList? list.id).getD list)).run
      (w₁.notice (.compensating "update_list" e)) with ⟨outcome, w₂⟩
    have hproceeds := Proceeds.rolledBack (m := .updateList list) rfl (hforward _ rfl rfl)
      ((run_undo_single k _ 0 rfl rfl).trans hrestore)
    exact hproceeds.run_carryOut
  · rw [hask] at hforward
    have hproceeds := Proceeds.committed (m := .updateList list) rfl (hforward _ rfl rfl)
    exact hproceeds.run_carryOut

def updatedEntry : Checklist :=
  { list with items := ((w.snapshot.findList? list.id).map (·.items)).getD [] }

structure KeepsItems (content : σ → Image) : Prop where
  bare : ∀ items, (k.perform (.updateList { list with items := items })).run w =
    (k.perform (.updateList list)).run w
  result : ((k.perform (.updateList list)).run w).1 =
    ((k.ask (.saveList list)).run w).1.map fun _ => .list (updatedEntry list w)
  shown : (k.perform (.updateList list)).Ends w
    (fun reply w' => ∃ entry, reply = .list entry ∧
      w'.snapshot.findList? list.id = some entry ∧
      w'.published = w.published ++ [w'.snapshot] ∧
      w'.snapshot.holdings = w.snapshot.holdings ++
        if (w.snapshot.findList? list.id).isSome then [] else [(list.id, [])])
    (fun _ w' => ShowsOnly w.snapshot.lists w w')
  stored : (content ((k.perform (.updateList list)).run w).2.storage).items =
    (content w.storage).items

section Bare

variable {k w} (hdiscreet : k.gateway.Discreet)
variable (hbare : ∀ list, k.ask (.saveList list.withoutItems) = k.ask (.saveList list))
include hdiscreet hbare

theorem run_restoring_withoutItems {list : Checklist}
    (habsent : w.snapshot.lists.any (·.id == list.id) = false) :
    (k.restoring list.withoutItems).run w = (k.restoring list).run w := by
  unfold restoring
  rw [Act.run_bind, Act.run_bind, hbare]
  have huntouched : Untouched w ((k.ask (.saveList list)).run w).2 := hdiscreet.ask _ w
  rcases hask : (k.ask (.saveList list)).run w with ⟨e | _, w₁⟩
  · rfl
  · rw [hask] at huntouched
    rw [← huntouched.snapshot] at habsent
    have hsame (former : Checklist) :
        (w₁.snapshot.draft.modify list.id fun _ => former).2 = w₁.snapshot.draft :=
      Draft.modify_of_absent _ habsent _
    have hpublish : w₁.publish (fun d => (d.modify list.id fun _ => list.withoutItems).2) =
        w₁.publish fun d => (d.modify list.id fun _ => list).2 :=
      publish_congr _ ((hsame _).trans (hsame _).symm)
    exact congrArg (Except.ok (), ·) hpublish

theorem run_updateList_withoutItems :
    (k.perform (.updateList list.withoutItems)).run w = (k.perform (.updateList list)).run w := by
  have huntouched : Untouched w ((k.ask (.saveList list)).run (announced list w)).2 :=
    ((Untouched.refl w).observe rfl).trans (hdiscreet.ask _ _)
  rw [run_updateList, run_updateList, hbare,
    show announced list.withoutItems w = announced list w from rfl]
  rcases hask : (k.ask (.saveList list)).run (announced list w) with ⟨e | _, w₁⟩
  · rw [hask] at huntouched
    cases hfind : w.snapshot.findList? list.id with
    | some former =>
      rw [show w.snapshot.findList? list.withoutItems.id = some former from hfind]
      rfl
    | none =>
      rw [show w.snapshot.findList? list.withoutItems.id = none from hfind]
      have habsent : (w₁.notice (.compensating "update_list" e)).snapshot.lists.any
          (·.id == list.id) = false := by
        rw [(huntouched.notice _).snapshot]
        exact any_of_find?_eq_none hfind
      simp only [Option.getD_none, run_restoring_withoutItems hdiscreet hbare habsent]
  · rfl

end Bare

section Shown

variable {list w} {w' : World σ}

theorem findList?_of_commits (h : Commits ((Call.updateList list).effect w.snapshot.lists) w w') :
    w'.snapshot.findList? list.id = some (updatedEntry list w) := by
  unfold Snapshot.findList? updatedEntry
  rw [h.current, Call.effect]
  cases hfind : w.snapshot.findList? list.id with
  | none =>
    simp only [any_of_find?_eq_none hfind, Bool.false_eq_true, ↓reduceIte]
    rw [List.find?_append, show w.snapshot.lists.find? (·.id == list.id) = none from hfind]
    simp
  | some entry =>
    simp only [any_of_find? hfind, ↓reduceIte]
    rw [find?_changeFirst, show w.snapshot.lists.find? (·.id == list.id) = some entry from hfind]
    · rfl
    · intro _ _
      exact beq_self_eq_true list.id

theorem holdings_of_commits (h : Commits ((Call.updateList list).effect w.snapshot.lists) w w') :
    w'.snapshot.holdings = w.snapshot.holdings ++
      if (w.snapshot.findList? list.id).isSome then [] else [(list.id, [])] := by
  unfold Snapshot.holdings
  rw [h.current, Call.effect]
  cases hfind : w.snapshot.findList? list.id with
  | none =>
    simp only [any_of_find?_eq_none hfind, Bool.false_eq_true, ↓reduceIte]
    exact List.map_append
  | some entry =>
    simp only [any_of_find? hfind, ↓reduceIte, Option.isSome_some, List.append_nil]
    apply map_changeFirst
    intro entry hid
    exact Prod.ext (beq_iff_eq.1 hid).symm rfl

theorem ends_updateList (hk : k.gateway.Discreet) :
    (k.perform (.updateList list)).Ends w
      (fun reply w' => reply = .list (updatedEntry list w) ∧
        Commits ((Call.updateList list).effect w.snapshot.lists) w w')
      (fun _ w' => ShowsOnly w.snapshot.lists w w') := by
  have hentry : (k.perform (.updateList list)).Ends w
      (fun reply w' => reply = .list ((w'.snapshot.findList? list.id).getD list.withoutItems))
      (fun _ _ => True) := by
    unfold Act.Ends
    rw [run_updateList]
    rcases (k.ask (.saveList list)).run (announced list w) with ⟨e | _, w₁⟩
    · trivial
    · rfl
  apply (hentry.and (ends_perform hk w rfl nofun)).mono
  · rintro _ w' ⟨rfl, h⟩
    rw [findList?_of_commits h]
    exact ⟨rfl, h⟩
  · rintro _ w' ⟨_, h⟩
    exact h

theorem result_updateList (hk : k.gateway.Discreet) :
    ((k.perform (.updateList list)).run w).1 =
      ((k.ask (.saveList list)).run (announced list w)).1.map fun _ =>
        .list (updatedEntry list w) := by
  have hrun := run_updateList k list w
  rcases hask : (k.ask (.saveList list)).run (announced list w) with ⟨e | _, w₁⟩
  · rw [hrun, hask]
    rfl
  · rw [hask] at hrun
    rw [hrun]
    exact congrArg Except.ok ((ends_updateList k hk).of_ok hrun).1

end Shown

section Stored

variable (hg : ∀ list w, (content ((k.ask (.saveList list)).run w).2.storage).items =
  (content w.storage).items)
include hg

theorem items_restoring (former : Checklist) (w : World σ) :
    (content ((k.restoring former).run w).2.storage).items = (content w.storage).items := by
  rw [← hg former w]
  unfold restoring
  rw [Act.run_bind]
  rcases (k.ask (.saveList former)).run w with ⟨e | _, w₁⟩
  · rfl
  · rfl

theorem items_updateList :
    (content ((k.perform (.updateList list)).run w).2.storage).items =
      (content w.storage).items := by
  have hsaved := hg list (announced list w)
  rw [run_updateList]
  rcases hask : (k.ask (.saveList list)).run (announced list w) with ⟨e | _, w₁⟩
  · rw [hask] at hsaved
    have hrestored := k.items_restoring hg ((w.snapshot.findList? list.id).getD list)
      (w₁.notice (.compensating "update_list" e))
    dsimp only
    rcases hrun : (k.restoring _).run (w₁.notice (.compensating "update_list" e)) with
      ⟨c | _, w₂⟩
    · rw [hrun] at hrestored
      exact hrestored.trans hsaved
    · rw [hrun] at hrestored
      exact hrestored.trans hsaved
  · rw [hask] at hsaved
    exact hsaved

end Stored

theorem run_ask_within (config : KeeperConfig) (g : Gateway σ) (request : Request α) (w : World σ) :
    ((⟨config, g.within⟩ : Keeper σ).ask request).run w =
      (((g.ask request).run w.storage).1,
        { w with storage := ((g.ask request).run w.storage).2 }) :=
  Act.run_ofStorage _ w

/--
Over storage that saves lists without their items, whatever it answers, updating a list keeps items.
-/
theorem keepsItems_updateList {g : Gateway σ} (hg : g.SavesBare content) (config : KeeperConfig)
    (list : Checklist) (w : World σ) : KeepsItems ⟨config, g.within⟩ list w content where
  bare := by
    have hbare (list : Checklist) :
        g.within.ask (.saveList list.withoutItems) = g.within.ask (.saveList list) :=
      congrArg Act.ofStorage (hg.bare list)
    have hwithout (list : Checklist) :=
      run_updateList_withoutItems (w := w) (k := ⟨config, g.within⟩) list
        (Gateway.discreet_within g) hbare
    intro items
    rw [← hwithout, ← hwithout list]
    rfl
  result := by
    rw [result_updateList _ (Gateway.discreet_within g), run_ask_within, run_ask_within]
    rfl
  shown := by
    apply (ends_updateList _ (Gateway.discreet_within g)).mono
    · rintro _ w' ⟨rfl, h⟩
      exact ⟨_, rfl, findList?_of_commits h, h.published, holdings_of_commits h⟩
    · intro _ w' h
      exact h
  stored := by
    apply items_updateList
    intro former w
    rw [run_ask_within]
    exact hg.items former w.storage

/--
Updating a list cannot change items: not over storage whose calls fail at will, with or without
having taken their effect, and not over storage in a file on a disk where steps fail. This is about
a call that runs alone, from any snapshot and any content of storage.
-/
theorem updateList_keepsItems (config : KeeperConfig) (list : Checklist) :
    (∀ w, KeepsItems (faulty config) list w FaultyStore.image) ∧
      ∀ w, KeepsItems ⟨config, DataFile.gateway.within⟩ list w fun s => s.1.image :=
  ⟨keepsItems_updateList FaultyStore.savesBare_gateway config list,
    keepsItems_updateList DataFile.savesBare_gateway config list⟩

end Keeper
end ListKeeper
