import ListKeeper.Keeper.Call
import ListKeeper.Proofs.World

/-!
This module contains what calls of the keeper take over from storage: whatever holds of all calls of
storage, and of actions that are built of such, holds of what the keeper does with storage.
-/

namespace ListKeeper

structure Gateway.All (p : {α : Type} → Act ω α → Prop) (g : Gateway ω) : Prop where
  ask : ∀ {α : Type} (request : Request α), p (g.ask request)
  together : ∀ {α : Type} (ms : List (Act ω α)), (∀ m ∈ ms, p m) → p (g.together ms)

def Gateway.Only (r : ω → ω → Prop) (g : Gateway ω) : Prop :=
  g.All fun m => m.Only r

theorem Gateway.only_within {g : Gateway σ} {r : World σ → World σ → Prop}
    (h : ∀ w s, r w { w with storage := s }) : g.within.Only r where
  ask _ := Act.Only.within fun _ w => h w _
  together _ hms := (Act.built_only r).inTurn hms

theorem Gateway.Discreet.all {g : Gateway (World σ)} (h : g.Discreet) :
    g.All fun m => m.Discreet :=
  ⟨h.ask, h.together⟩

inductive Restoring.Publishes : Restoring → (Draft → Draft) → Prop
  | edit (edit : Draft → Draft) : Publishes (.edit edit) edit
  | reload (lists lists' : List Checklist) :
    Publishes (.reload lists) fun d => { d with lists := lists' }

namespace Keeper

open Act

section Storage

variable {p : {α : Type} → Act (World σ) α → Prop} {k : Keeper σ} (hp : Built p)
variable (hk : k.gateway.All p)
include hp hk

theorem all_writeAll (changes : List Write) : p (k.writeAll changes) := by
  induction changes with
  | nil => exact hp.pure _
  | cons change rest ih =>
    unfold writeAll
    apply hp.bind (hp.outcome (hk.ask change.request))
    rintro (e | _)
    · exact hp.pure _
    · exact hp.bind ih fun _ => hp.pure _

theorem all_verify (verified : Option (Change × String)) : p (k.verify verified) := by
  unfold verify
  split
  · next change id =>
    unfold verifyWrite
    split
    · apply hp.bind (hk.ask (.verify change id))
      intro confirmed
      split
      · exact hp.pure _
      · exact hp.fail _
    · exact hp.pure _
  · exact hp.pure _

theorem all_fetchAll : p k.fetchAll := by
  apply hp.bind (hk.ask .allLists)
  intro lists
  apply hk.together
  intro m hm
  obtain ⟨list, _, rfl⟩ := List.mem_map.1 hm
  exact hp.bind (hk.ask (.itemsOf list.id)) fun _ => hp.pure _

theorem all_forward {plan : Plan} (hshown : p (publishShowing plan.shown)) :
    p (k.forward plan) := by
  apply hp.bind (all_writeAll hp hk plan.changes)
  rintro ⟨e | _, made⟩
  · exact hp.pure _
  · apply hp.bind (hp.outcome (hp.bind (all_verify hp hk plan.verified) fun _ => hshown))
    intro shown
    exact hp.pure _

theorem all_undo {plan : Plan} (made : Nat)
    (hpublish : ∀ edit, plan.restored.Publishes edit → p (Act.publish edit)) :
    p (k.undo plan made) := by
  apply hp.bind (hp.each (f := k.write) (fun change => hk.ask change.request) _)
  intro _
  unfold publishRestoring
  have hshow {edit : Draft → Draft} (h : plan.restored.Publishes edit) :
      p (do let _ ← Act.publish edit : Act (World σ) Unit) :=
    hp.bind (hpublish edit h) fun _ => hp.pure _
  split
  · exact hp.pure _
  · next h => exact hshow (h ▸ .edit _)
  · next lists h =>
    refine hp.bind ?_ fun lists' => hshow (h ▸ .reload lists lists')
    unfold reread
    split
    · exact all_fetchAll hp hk
    · exact hp.pure _

end Storage

end Keeper
end ListKeeper
