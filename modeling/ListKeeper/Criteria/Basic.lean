import ListKeeper.Criteria.Order
import ListKeeper.Period

/-!
This module contains the criteria by which lists are selected and ordered, and the view of a
collection of lists that they give.
-/

namespace ListKeeper

structure Criteria where
  query : Option String
  topic : Option Topic
  showCompleted : Bool
  showInProgress : Bool
  period : Option Period
  order : Order
deriving DecidableEq, Repr

namespace Criteria

def initial : Criteria where
  query := none
  topic := none
  showCompleted := true
  showInProgress := true
  period := none
  order := .createdNewest

def isFiltering (c : Criteria) : Bool :=
  c.query.any (!Text.isBlankText ·) || c.topic.isSome || !c.showCompleted || !c.showInProgress ||
    c.period.isSome

def mentions (query : String) (list : Checklist) : Bool :=
  let needle := Text.lower (Text.trim query.toList)
  let within (s : String) := Text.occursIn needle (Text.lower s.toList)
  within list.name || list.description.any within

def accepts (c : Criteria) (now : Timestamp) (list : Checklist) : Bool :=
  c.query.all (mentions · list) && c.topic.all (· == list.topic) &&
    (c.showCompleted || !list.isCompleted) && (c.showInProgress || !list.isInProgress) &&
    c.period.all (·.covers list.createdAt now)

def view (c : Criteria) (now : Timestamp) (lists : List Checklist) : List Checklist :=
  (lists.filter (c.accepts now)).mergeSort c.order.le

/--
Whether the criteria accept a list, as far as that can be told. The period is looked at last, so
there is an answer for every list that is refused for another reason.
-/
def accepts? (c : Criteria) (now : Timestamp) (list : Checklist) : Option Bool :=
  if { c with period := none }.accepts now list then
    match c.period with
    | some period => period.covers? list.createdAt now
    | none => some true
  else
    some false

def accepted? (c : Criteria) (now : Timestamp) (lists : List Checklist) : Option (List Checklist) :=
  if lists.all fun list => (c.accepts? now list).isSome then
    some (lists.filter (c.accepts now))
  else
    none

/--
The view, as far as it can be told which lists are shown.
-/
def view? (c : Criteria) (now : Timestamp) (lists : List Checklist) : Option (List Checklist) :=
  (c.accepted? now lists).map (·.mergeSort c.order.le)

def fieldNames : List String :=
  ["search_query", "selected_type", "show_completed", "show_in_progress", "selected_date_filter",
    "sort_option"]

def toJson (c : Criteria) : Json :=
  .obj [
    ("search_query", .opt .str c.query),
    ("selected_type", .opt (·.toJson) c.topic),
    ("show_completed", .bool c.showCompleted),
    ("show_in_progress", .bool c.showInProgress),
    ("selected_date_filter", .opt (·.toJson) c.period),
    ("sort_option", c.order.toJson)]

def ofJson? (j : Json) : Option Criteria := do
  let fields ← j.record? fieldNames
  return {
    query := ← (fields "search_query").optional Json.str?
    topic := ← (fields "selected_type").optional Topic.ofJson?
    showCompleted := ← (fields "show_completed").required Json.bool?
    showInProgress := ← (fields "show_in_progress").required Json.bool?
    period := ← (fields "selected_date_filter").optional Period.ofJson?
    order := ← (fields "sort_option").required Order.ofJson?
  }

end Criteria
end ListKeeper
