import ListKeeper.Keeper.Filters
import ListKeeper.Keeper.Items
import ListKeeper.Keeper.Lists

/-!
This module contains the calls of the keeper as data, so that runs of calls can be spoken about.
-/

namespace ListKeeper

inductive Call where
  | createList (list : Checklist)
  | updateList (list : Checklist)
  | deleteList (id : String)
  | clearAll
  | loadAll
  | addItem (listId : String) (item : Item)
  | updateItem (listId : String) (item : Item)
  | removeItem (listId itemId : String)
  | addItems (listId : String) (items : List Item)
  | reset
  | setQuery (query : String)
  | setTopic (topic : Option Topic)
  | setShowCompleted (shown : Bool)
  | setShowInProgress (shown : Bool)
  | setPeriod (period : Option Period)
  | setPeriodText (text : String)
  | setOrder (order : Order)
  | resetCriteria
deriving DecidableEq, Repr

def Call.mutation? : Call → Option Mutation
  | .createList list => some (.createList list)
  | .updateList list => some (.updateList list)
  | .deleteList id => some (.deleteList id)
  | .clearAll => some .clearAll
  | .addItem listId item => some (.addItem listId item)
  | .updateItem listId item => some (.updateItem listId item)
  | .removeItem listId itemId => some (.removeItem listId itemId)
  | .addItems listId items => some (.addItems listId items)
  | _ => none

namespace Keeper

def perform (k : Keeper σ) : Call → Act (World σ) Reply
  | .createList list => k.carryOut (.createList list)
  | .updateList list => k.carryOut (.updateList list)
  | .deleteList id => k.carryOut (.deleteList id)
  | .clearAll => k.carryOut .clearAll
  | .addItem listId item => k.carryOut (.addItem listId item)
  | .updateItem listId item => k.carryOut (.updateItem listId item)
  | .removeItem listId itemId => k.carryOut (.removeItem listId itemId)
  | .addItems listId items => k.carryOut (.addItems listId items)
  | .loadAll => do return .version (← k.loadAll).version
  | .reset => do return .version (← reset).version
  | .setQuery query => do return .version (← setQuery query).version
  | .setTopic topic => do return .version (← setTopic topic).version
  | .setShowCompleted shown => do return .version (← setShowCompleted shown).version
  | .setShowInProgress shown => do return .version (← setShowInProgress shown).version
  | .setPeriod period => do return .version (← setPeriod period).version
  | .setPeriodText text => do return .version (← setPeriodText text).version
  | .setOrder order => do return .version (← setOrder order).version
  | .resetCriteria => do return .version (← resetCriteria).version

def run (k : Keeper σ) : List Call → World σ → World σ
  | [], w => w
  | call :: rest, w => run k rest ((k.perform call).run w).2

/--
The state after a run of calls, none if a call breaks down: one that publishes what cannot be told
never returns.
-/
def run? (k : Keeper σ) : List Call → World σ → Option (World σ)
  | [], w => some w
  | call :: rest, w =>
    let next := ((k.perform call).run w).2
    if (next.journal.drop w.journal.length).all (·.isTold next.board.now) then run? k rest next
    else none

end Keeper
end ListKeeper
