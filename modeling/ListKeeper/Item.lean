import ListKeeper.Json.Record

/-!
This module contains the items of a checklist and their written form, and how the ids of new entities
are made: universally unique identifiers of the random kind.
-/

namespace ListKeeper

namespace EntityId

def stamp (random : BitVec 128) : BitVec 128 :=
  (random &&& ~~~(0xF000#128 <<< 64) &&& ~~~(0xC000#128 <<< 48)) |||
    (0x4000#128 <<< 64) ||| (0x8000#128 <<< 48)

def groups : List Nat := [8, 4, 4, 4, 12]

def cut : List Nat → List Char → List (List Char)
  | [], _ => []
  | n :: rest, cs => cs.take n :: cut rest (cs.drop n)

def ofRandom (random : BitVec 128) : String :=
  let digits := Text.hexDigits 32 (stamp random).toNat
  "-".intercalate ((cut groups digits).map String.ofList)

end EntityId

structure Item where
  id : String
  title : String
  description : Option String
  category : Option String
  score : Double
  completed : Bool
  createdAt : Timestamp
  completedAt : Option Timestamp
  dueDate : Option Timestamp
  listId : String
deriving DecidableEq, Repr

namespace Item

/--
The score of an item that was never compared with another: 1200.
-/
def initialScore : Double := ⟨0x4092C00000000000⟩

def create (id title listId : String) (now : Timestamp) : Item where
  id := id
  title := title
  description := none
  category := none
  score := initialScore
  completed := false
  createdAt := now
  completedAt := none
  dueDate := none
  listId := listId

def complete (item : Item) (now : Timestamp) : Item :=
  { item with completed := true, completedAt := some (item.completedAt.getD now) }

def reopen (item : Item) : Item :=
  { item with completed := false, completedAt := none }

def moveTo (listId : String) (item : Item) : Item :=
  { item with listId := listId }

def fieldNames : List String :=
  ["id", "title", "description", "category", "elo_score", "is_completed", "created_at",
    "completed_at", "due_date", "list_id"]

def toJsonWith (writeScore : Double → Json) (item : Item) : Json :=
  .obj [
    ("id", .str item.id),
    ("title", .str item.title),
    ("description", .opt .str item.description),
    ("category", .opt .str item.category),
    ("elo_score", writeScore item.score),
    ("is_completed", .bool item.completed),
    ("created_at", .time item.createdAt),
    ("completed_at", .opt .time item.completedAt),
    ("due_date", .opt .time item.dueDate),
    ("list_id", .str item.listId)]

def toJson (item : Item) : Json :=
  item.toJsonWith .double

def ofJson? (j : Json) : Option Item := do
  let fields ← j.record? fieldNames
  return {
    id := ← (fields "id").required Json.str?
    title := ← (fields "title").required Json.str?
    description := ← (fields "description").optional Json.str?
    category := ← (fields "category").optional Json.str?
    score := ← (fields "elo_score").required Json.double?
    completed := ← (fields "is_completed").required Json.bool?
    createdAt := ← (fields "created_at").required Json.time?
    completedAt := ← (fields "completed_at").optional Json.time?
    dueDate := ← (fields "due_date").optional Json.time?
    listId := ← (fields "list_id").required Json.str?
  }

end Item
end ListKeeper
