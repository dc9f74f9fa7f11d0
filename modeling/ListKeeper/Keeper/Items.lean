import ListKeeper.Keeper.Mutation

/-!
This module contains the calls of the keeper that concern the items of a list.
-/

namespace ListKeeper

namespace Checklist

def replaceItem (item : Item) (list : Checklist) : Checklist :=
  match list.positionOf? item.id with
  | some i => list.withItems (list.items.set i item)
  | none => list.withItems (list.items ++ [item])

def resetItem (item : Item) (list : Checklist) : Checklist :=
  match list.positionOf? item.id with
  | some i => list.withItems (list.items.set i item)
  | none => list

def reinsertItem (index : Nat) (item : Item) (list : Checklist) : Checklist :=
  if (list.findItem? item.id).isNone then
    list.withItems (list.items.insertIdx (min index list.items.length) item)
  else
    list

end Checklist

def Snapshot.withList (s : Snapshot) (id : String) (f : Checklist → Except Error β) :
    Except Error β :=
  match s.findList? id with
  | some list => f list
  | none => .error (.notFound "list" id)

namespace Mutation

def addItem (listId : String) (item : Item) : Mutation :=
  let stored := item.moveTo listId
  { operation := "add_item"
    span := ⟨"orchestrator.add_item", [("list_id", .str listId), ("item_id", .str item.id)]⟩
    plan := fun s => s.withList listId fun _ => .ok {
      changes := [.saveItem stored]
      verified := some (.createItem, stored.id)
      shown := .into listId fun list => list.withItems (list.items ++ [stored])
      undoing := fun _ => [.deleteItem stored.id] }
    reply := fun _ => .item stored }

def updateItem (listId : String) (item : Item) : Mutation :=
  let stored := item.moveTo listId
  { operation := "update_item"
    span := ⟨"orchestrator.update_item", [("list_id", .str listId), ("item_id", .str item.id)]⟩
    plan := fun s => s.withList listId fun parent =>
      let former := (parent.findItem? stored.id).getD stored
      .ok {
        changes := [.saveItem stored]
        shown := .into listId (·.replaceItem stored)
        undoing := fun _ => [.saveItem former]
        restored := .edit fun d => (d.modify listId (·.resetItem former)).2 }
    reply := fun _ => .item stored }

def removeItem (listId itemId : String) : Mutation where
  operation := "remove_item"
  span := ⟨"orchestrator.remove_item", [("list_id", .str listId), ("item_id", .str itemId)]⟩
  plan s := s.withList listId fun parent =>
    match parent.positionOf? itemId, parent.findItem? itemId with
    | some index, some former => .ok {
      changes := [.deleteItem itemId]
      shown := .into listId fun list => list.withItems (list.items.filter (·.id != itemId))
      undoing := fun _ => [.saveItem former]
      restored := .edit fun d => (d.modify listId (·.reinsertItem index former)).2 }
    | _, _ => .error (.notFound "item" itemId)
  reply _ := .done

def addItems (listId : String) (items : List Item) : Mutation :=
  let stored := items.map (·.moveTo listId)
  { operation := "add_items"
    span := ⟨"orchestrator.add_items", [("list_id", .str listId), ("count", .nat items.length)]⟩
    plan := fun s => s.withList listId fun _ => .ok {
      changes := stored.map .saveItem
      shown := .into listId fun list => list.withItems (list.items ++ stored)
      undoing := fun made => (stored.take made).map (.deleteItem ·.id) }
    notices := fun _ => [.itemsAdded listId stored.length]
    reply := fun _ => .items stored }

end Mutation
end ListKeeper
