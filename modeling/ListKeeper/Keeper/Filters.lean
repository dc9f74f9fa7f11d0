import ListKeeper.Keeper.Basic

/-!
This module contains the calls of the keeper that change the criteria. They never touch storage,
and each of them publishes, so that the view is computed anew.
-/

namespace ListKeeper.Keeper

def updateCriteria (f : Criteria → Criteria) : Act (World σ) Snapshot :=
  Act.publish fun d => { d with criteria := f d.criteria }

def setQuery (query : String) : Act (World σ) Snapshot :=
  updateCriteria fun c => { c with query := if Text.isBlankText query then none else some query }

def setTopic (topic : Option Topic) : Act (World σ) Snapshot :=
  updateCriteria fun c => { c with topic := topic }

def setShowCompleted (shown : Bool) : Act (World σ) Snapshot :=
  updateCriteria fun c => { c with showCompleted := shown }

def setShowInProgress (shown : Bool) : Act (World σ) Snapshot :=
  updateCriteria fun c => { c with showInProgress := shown }

def setPeriod (period : Option Period) : Act (World σ) Snapshot :=
  updateCriteria fun c => { c with period := period }

def setPeriodText (text : String) : Act (World σ) Snapshot :=
  if Text.isBlankText text then
    setPeriod none
  else
    match Period.parse? text with
    | some period => setPeriod (some period)
    | none =>
      let trimmed := Text.trimmed text
      Act.fail (.invalidConfig s!"unknown date filter '{trimmed}'")

def setOrder (order : Order) : Act (World σ) Snapshot :=
  updateCriteria fun c => { c with order := order }

def resetCriteria : Act (World σ) Snapshot :=
  updateCriteria fun _ => .initial

def reset : Act (World σ) Snapshot :=
  Act.publish (·.cleared)

end ListKeeper.Keeper
