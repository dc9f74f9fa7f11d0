import ListKeeper.Act
import ListKeeper.Checklist

/-!
This module contains what the program asks of storage. Storage holds lists without their items, and
items that name their list.
-/

namespace ListKeeper

inductive Change where
  | createList
  | updateList
  | deleteList
  | createItem
  | updateItem
  | deleteItem
deriving DecidableEq, Repr

namespace Change

def all : List Change :=
  [.createList, .updateList, .deleteList, .createItem, .updateItem, .deleteItem]

def name : Change → String
  | .createList => "create_list"
  | .updateList => "update_list"
  | .deleteList => "delete_list"
  | .createItem => "create_item"
  | .updateItem => "update_item"
  | .deleteItem => "delete_item"

def ofName? (s : String) : Option Change :=
  all.find? fun change => change.name == s

def expectsPresence : Change → Bool
  | .deleteList | .deleteItem => false
  | _ => true

def targetsList : Change → Bool
  | .createList | .updateList | .deleteList => true
  | _ => false

def toJson (change : Change) : Json := .str change.name

def ofJson? (j : Json) : Option Change := j.name?.bind ofName?

end Change

inductive Request : Type → Type where
  | allLists : Request (List Checklist)
  | findList (id : String) : Request (Option Checklist)
  | saveList (list : Checklist) : Request Unit
  | deleteList (id : String) : Request Unit
  | itemsOf (listId : String) : Request (List Item)
  | findItem (id : String) : Request (Option Item)
  | saveItem (item : Item) : Request Unit
  | deleteItem (id : String) : Request Unit
  | clear : Request Unit
  | verify (change : Change) (id : String) : Request Bool

namespace Request

def method : Request α → String
  | .allLists => "get_all_lists"
  | .findList _ => "get_list"
  | .saveList _ => "save_list"
  | .deleteList _ => "delete_list"
  | .itemsOf _ => "get_items_by_list"
  | .findItem _ => "get_item"
  | .saveItem _ => "save_item"
  | .deleteItem _ => "delete_item"
  | .clear => "clear_all"
  | .verify .. => "verify"

def subject : Request α → String
  | .allLists | .clear => ""
  | .findList id | .deleteList id | .itemsOf id | .findItem id | .deleteItem id | .verify _ id => id
  | .saveList list => list.id
  | .saveItem item => item.id

end Request

inductive Write where
  | saveList (list : Checklist)
  | deleteList (id : String)
  | saveItem (item : Item)
  | deleteItem (id : String)
  | clear
deriving DecidableEq, Repr

def Write.request : Write → Request Unit
  | .saveList list => .saveList list
  | .deleteList id => .deleteList id
  | .saveItem item => .saveItem item
  | .deleteItem id => .deleteItem id
  | .clear => .clear

def Checklist.saves (list : Checklist) : List Write :=
  .saveList list :: list.items.map .saveItem

/--
Storage as it is seen by the program: an action for each call, and how actions that call storage are
run together. The state `ω` is all that a call may read and change.
-/
structure Gateway (ω : Type) where
  ask : {α : Type} → Request α → Act ω α
  together : {α : Type} → List (Act ω α) → Act ω (List α)

namespace Gateway

def ofFunction (answer : {α : Type} → Request α → ω → Except Error α × ω) : Gateway ω where
  ask request := .atomic (answer request)
  together := .inTurn

end Gateway

end ListKeeper
