import ListKeeper.Checklist

/-!
This module contains the orders in which lists are shown. Each compares lists by one key, and lists
with equal keys keep the order they have.
-/

namespace ListKeeper

inductive Order where
  | nameAsc
  | nameDesc
  | createdNewest
  | createdOldest
  | progressDesc
  | progressAsc
  | itemCountDesc
deriving DecidableEq, Repr

namespace Order

def all : List Order :=
  [.nameAsc, .nameDesc, .createdNewest, .createdOldest, .progressDesc, .progressAsc, .itemCountDesc]

def name : Order → String
  | .nameAsc => "name_asc"
  | .nameDesc => "name_desc"
  | .createdNewest => "created_newest"
  | .createdOldest => "created_oldest"
  | .progressDesc => "progress_desc"
  | .progressAsc => "progress_asc"
  | .itemCountDesc => "item_count_desc"

def ofName? (s : String) : Option Order :=
  all.find? fun order => order.name == s

def le (order : Order) (a b : Checklist) : Bool :=
  match order with
  | .nameAsc => Text.lowered a.name ≤ Text.lowered b.name
  | .nameDesc => Text.lowered b.name ≤ Text.lowered a.name
  | .createdNewest => b.createdAt ≤ a.createdAt
  | .createdOldest => a.createdAt ≤ b.createdAt
  | .progressDesc => b.progress.rank ≤ a.progress.rank
  | .progressAsc => a.progress.rank ≤ b.progress.rank
  | .itemCountDesc => b.items.length ≤ a.items.length

def toJson (order : Order) : Json := .str order.name

def ofJson? (j : Json) : Option Order := j.name?.bind ofName?

end Order
end ListKeeper
