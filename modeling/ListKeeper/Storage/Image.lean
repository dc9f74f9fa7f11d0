import ListKeeper.Index
import ListKeeper.Storage.Gateway

/-!
This module contains the content of storage, with the answers to the calls it serves. Lists and
items are given in the order of their creation, and those of the same moment by id.
-/

namespace ListKeeper

structure Image where
  lists : Index Checklist
  items : Index Item
deriving DecidableEq, Repr

def createdBefore (at₁ : Timestamp) (id₁ : String) (at₂ : Timestamp) (id₂ : String) : Bool :=
  at₁.rank < at₂.rank || (at₁.rank == at₂.rank && id₁ ≤ id₂)

namespace Image

def empty : Image := ⟨.empty, .empty⟩

def allLists (image : Image) : List Checklist :=
  image.lists.values.mergeSort fun a b => createdBefore a.createdAt a.id b.createdAt b.id

def itemsOf (image : Image) (listId : String) : List Item :=
  (image.items.values.filter (·.listId == listId)).mergeSort fun a b =>
    createdBefore a.createdAt a.id b.createdAt b.id

def putList (image : Image) (list : Checklist) : Image :=
  { image with lists := image.lists.insert list.id list.withoutItems }

def removeList (image : Image) (id : String) : Image where
  lists := image.lists.erase id
  items := image.items.filter fun _ item => item.listId != id

def putItem (image : Image) (item : Item) : Image :=
  { image with items := image.items.insert item.id item }

def removeItem (image : Image) (id : String) : Image :=
  { image with items := image.items.erase id }

def verify (image : Image) (change : Change) (id : String) : Bool :=
  let present := if change.targetsList then image.lists.contains id else image.items.contains id
  present == change.expectsPresence

def serve (image : Image) : Request α → α × Image
  | .allLists => (image.allLists, image)
  | .findList id => (image.lists.get? id, image)
  | .saveList list => ((), image.putList list)
  | .deleteList id => ((), image.removeList id)
  | .itemsOf listId => (image.itemsOf listId, image)
  | .findItem id => (image.items.get? id, image)
  | .saveItem item => ((), image.putItem item)
  | .deleteItem id => ((), image.removeItem id)
  | .clear => ((), empty)
  | .verify change id => (image.verify change id, image)

def gateway : Gateway Image :=
  .ofFunction fun request image =>
    let (answer, image) := image.serve request
    (.ok answer, image)

def toJson (image : Image) : Json :=
  .obj [
    ("lists", .obj (image.lists.entries.map fun (id, list) => (id, list.toJson))),
    ("items", .obj (image.items.entries.map fun (id, item) => (id, item.toJson)))]

def ofJson? (j : Json) : Option Image := do
  let fields ← j.record? ["lists", "items"]
  let lists ← (fields "lists").orElse (Json.entries? Checklist.ofJson?) []
  let items ← (fields "items").orElse (Json.entries? Item.ofJson?) []
  return ⟨.ofList lists, .ofList items⟩

end Image
end ListKeeper
