import ListKeeper.Item
import ListKeeper.Text.Basic
import ListKeeper.Text.Lowercase

/-!
This module contains checklists with their topic, their progress and their written form.
-/

namespace ListKeeper

inductive Topic where
  | travel
  | shopping
  | movies
  | books
  | restaurants
  | projects
  | custom
deriving DecidableEq, Repr

namespace Topic

def all : List Topic :=
  [.travel, .shopping, .movies, .books, .restaurants, .projects, .custom]

def name : Topic → String
  | .travel => "travel"
  | .shopping => "shopping"
  | .movies => "movies"
  | .books => "books"
  | .restaurants => "restaurants"
  | .projects => "projects"
  | .custom => "custom"

def label : Topic → String
  | .travel => "Travel"
  | .shopping => "Shopping"
  | .movies => "Movies"
  | .books => "Books"
  | .restaurants => "Restaurants"
  | .projects => "Projects"
  | .custom => "Custom"

def ofName? (s : String) : Option Topic :=
  all.find? fun topic => topic.name == s

def parse? (s : String) : Option Topic :=
  ofName? (Text.lowered (Text.trimmed s))

def toJson (topic : Topic) : Json := .str topic.name

def ofJson? (j : Json) : Option Topic := j.name?.bind ofName?

end Topic

structure Checklist where
  id : String
  name : String
  topic : Topic
  description : Option String
  items : List Item
  createdAt : Timestamp
  updatedAt : Timestamp
deriving DecidableEq, Repr

namespace Checklist

def create (id name : String) (now : Timestamp) : Checklist where
  id := id
  name := name
  topic := .custom
  description := none
  items := []
  createdAt := now
  updatedAt := now

def withoutItems (list : Checklist) : Checklist :=
  { list with items := [] }

def completedCount (list : Checklist) : Nat :=
  (list.items.filter (·.completed)).length

def progress (list : Checklist) : Double :=
  if list.items.isEmpty then ⟨0⟩
  else (Double.ofNat list.completedCount).div (.ofNat list.items.length)

def isCompleted (list : Checklist) : Bool :=
  !list.items.isEmpty && list.completedCount == list.items.length

def isInProgress (list : Checklist) : Bool :=
  0 < list.completedCount && list.completedCount < list.items.length

def findItem? (list : Checklist) (id : String) : Option Item :=
  list.items.find? (·.id == id)

def positionOf? (list : Checklist) (id : String) : Option Nat :=
  list.items.findIdx? (·.id == id)

def withItems (list : Checklist) (items : List Item) : Checklist :=
  { list with items := items }

def withCreatedAt (list : Checklist) (at' : Timestamp) : Checklist :=
  { list with createdAt := at', updatedAt := at' }

def touch (list : Checklist) (now : Timestamp) : Checklist :=
  { list with updatedAt := now }

def fieldNames : List String :=
  ["id", "name", "list_type", "description", "items", "created_at", "updated_at"]

def toJsonWith (writeScore : Double → Json) (list : Checklist) : Json :=
  .obj [
    ("id", .str list.id),
    ("name", .str list.name),
    ("list_type", list.topic.toJson),
    ("description", .opt .str list.description),
    ("items", .arr (list.items.map (·.toJsonWith writeScore))),
    ("created_at", .time list.createdAt),
    ("updated_at", .time list.updatedAt)]

def toJson (list : Checklist) : Json :=
  list.toJsonWith .double

def ofJson? (j : Json) : Option Checklist := do
  let fields ← j.record? fieldNames
  return {
    id := ← (fields "id").required Json.str?
    name := ← (fields "name").required Json.str?
    topic := ← (fields "list_type").required Topic.ofJson?
    description := ← (fields "description").optional Json.str?
    items := ← (fields "items").orElse (Json.list? Item.ofJson?) []
    createdAt := ← (fields "created_at").required Json.time?
    updatedAt := ← (fields "updated_at").required Json.time?
  }

end Checklist
end ListKeeper
