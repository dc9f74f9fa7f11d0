import ListKeeper.Keeper.Mutation

/-!
This module contains the calls of the keeper that concern whole lists.
-/

namespace ListKeeper

namespace Mutation

def createList (list : Checklist) : Mutation :=
  let stored := list.withItems (list.items.map (·.moveTo list.id))
  { operation := "create_list"
    span := ⟨"orchestrator.create_list", [("list_id", .str list.id)]⟩
    plan := fun _ => .ok {
      changes := stored.saves
      verified := some (.createList, stored.id)
      shown := .edit (·.upsert stored)
      undoing := fun _ => [.deleteList stored.id] }
    notices := fun _ => [.listCreated stored.id stored.items.length]
    reply := fun _ => .list stored }

/--
Replace the fields of a list but not its items. Undone by storing the list as it was, which is the
given list when there is none with its id.
-/
def updateList (list : Checklist) : Mutation where
  operation := "update_list"
  span := ⟨"orchestrator.update_list", [("list_id", .str list.id)]⟩
  plan s :=
    let former := (s.findList? list.id).getD list
    .ok {
      changes := [.saveList list]
      shown := .edit fun d =>
        let (found, d) := d.modify list.id fun entry => list.withItems entry.items
        if found then d else d.upsert list.withoutItems
      undoing := fun _ => [.saveList former]
      restored := .edit fun d => (d.modify former.id fun _ => former).2 }
  reply s := .list ((s.findList? list.id).getD list.withoutItems)

def deleteList (id : String) : Mutation where
  operation := "delete_list"
  span := ⟨"orchestrator.delete_list", [("list_id", .str id)]⟩
  plan s :=
    match s.positionOf? id, s.findList? id with
    | some index, some former => .ok {
      changes := [.deleteList id]
      shown := .edit fun d => (d.remove id).2
      undoing := fun _ => former.saves
      restored := .edit (·.insertAt index former) }
    | _, _ => .error (.notFound "list" id)
  reply _ := .done

/--
Remove everything. Undone by storing all lists again and showing what storage then holds, or the
lists as they were.
-/
def clearAll : Mutation where
  operation := "clear_all"
  span := ⟨"orchestrator.clear_all", []⟩
  plan s := .ok {
    changes := [.clear]
    shown := .edit fun d => { d with lists := [] }
    undoing := fun _ => s.lists.flatMap (·.saves)
    restored := .reload s.lists }
  notices s := [.allCleared s.lists.length]
  reply _ := .done

end Mutation

namespace Keeper

variable (k : Keeper σ)

def loadAll : Act (World σ) Snapshot := do
  Act.enter "orchestrator.load_all" []
  let _ ← Act.publish fun d => { d with loading := true }
  match ← k.fetchAll.outcome with
  | .ok lists =>
    let snapshot ← Act.publish fun d =>
      { d with lists := lists, loading := false, error := none }
    Act.notice (.listsLoaded lists.length snapshot.version)
    return snapshot
  | .error e =>
    reportFailure "load_all" e fun d => { d with loading := false }
    Act.fail e

end Keeper
end ListKeeper
