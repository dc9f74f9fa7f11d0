import ListKeeper.Keeper.Basic

/-!
This module contains the one shape that all calls which change lists have: a check of what is shown,
a transaction that changes storage first and the snapshot then, the report of a failure, and a reply.
-/

namespace ListKeeper

inductive Reply where
  | done
  | list (list : Checklist)
  | item (item : Item)
  | items (items : List Item)
  | version (version : Nat)
deriving DecidableEq, Repr

/--
What is published when storage has taken all changes of a call. A change of one list fails when the
list is gone.
-/
inductive Showing where
  | edit (edit : Draft → Draft)
  | into (listId : String) (f : Checklist → Checklist)

namespace Showing

def draft : Showing → Draft → Draft
  | .edit f, d => { f d with error := none }
  | .into listId f, d =>
    let (found, d) := d.modify listId f
    if found then { d with error := none } else d

def outcome : Showing → Snapshot → Except Error Unit
  | .edit _, _ => .ok ()
  | .into listId _, s =>
    if (s.positionOf? listId).isSome then .ok () else .error (.notFound "list" listId)

end Showing

inductive Restoring where
  | nothing
  | edit (edit : Draft → Draft)
  | reload (lists : List Checklist)

/--
What a call does that has passed its check. The changes that undo it depend on how many of its own
were made.
-/
structure Plan where
  changes : List Write
  verified : Option (Change × String) := none
  shown : Showing
  undoing : Nat → List Write
  restored : Restoring := .nothing

/--
A call that changes lists. The plan depends on what is shown when the call is made, and so do the
notices. The reply depends on what is shown in the end.
-/
structure Mutation where
  operation : String
  span : Span
  plan : Snapshot → Except Error Plan
  notices : Snapshot → List Notice := fun _ => []
  reply : Snapshot → Reply

namespace Keeper

variable (k : Keeper σ)

def verify : Option (Change × String) → Act (World σ) Unit
  | some (change, id) => k.verifyWrite change id
  | none => pure ()

def publishShowing (shown : Showing) : Act (World σ) Unit :=
  Act.atomic fun w => (shown.outcome w.snapshot, w.publish shown.draft)

def reread (lists : List Checklist) : Act (World σ) (List Checklist) :=
  if k.config.reloadAfterClearRollback then k.fetchAll else pure lists

def publishRestoring : Restoring → Act (World σ) Unit
  | .nothing => pure ()
  | .edit edit => do
    let _ ← Act.publish edit
  | .reload lists => do
    let lists ← k.reread lists
    let _ ← Act.publish fun d => { d with lists := lists }

def forward (plan : Plan) : Act (World σ) (Except Error Unit × Nat) := do
  match ← k.writeAll plan.changes with
  | (.ok (), made) =>
    let shown ← (do k.verify plan.verified; publishShowing plan.shown : Act _ _).outcome
    return (shown, made)
  | refused => return refused

def undo (plan : Plan) (made : Nat) : Act (World σ) Unit := do
  Act.each k.write (plan.undoing made)
  k.publishRestoring plan.restored

def carryOut (m : Mutation) : Act (World σ) Reply := do
  Act.enter m.span.name m.span.fields
  let s ← Act.snapshot
  settle m.operation do
    let plan ← Act.ofExcept (m.plan s)
    transactTracking m.operation (k.forward plan) (k.undo plan)
  Act.each Act.notice (m.notices s)
  return m.reply (← Act.snapshot)

end Keeper
end ListKeeper
