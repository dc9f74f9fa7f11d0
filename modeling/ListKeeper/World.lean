import ListKeeper.Act
import ListKeeper.Storage.Gateway
import ListKeeper.Trace

/-!
This module contains the state that calls of the program act on: the board, the counts of
transactions, the state of storage and the journal of what could be observed.
-/

namespace ListKeeper

structure Tally where
  committed : Nat
  rolledBack : Nat
  compensationFailures : Nat
deriving DecidableEq, Repr

def Tally.zero : Tally := ⟨0, 0, 0⟩

structure World (σ : Type) where
  board : Board
  tally : Tally
  storage : σ
  journal : List Event

namespace World

def initial (now : Timestamp) (storage : σ) : World σ :=
  ⟨.initial now, .zero, storage, []⟩

def snapshot (w : World σ) : Snapshot := w.board.snapshot

def observe (w : World σ) (event : Event) : World σ :=
  { w with journal := w.journal ++ [event] }

def notice (w : World σ) (n : Notice) : World σ :=
  w.observe (.noticed n)

def publish (w : World σ) (edit : Draft → Draft) : World σ :=
  let board := w.board.publish edit
  { w with board := board }.observe (.published board.snapshot)

end World

namespace Act

def notice (n : Notice) : Act (World σ) Unit :=
  modify (·.notice n)

def enter (name : String) (fields : List (String × Json)) : Act (World σ) Unit :=
  modify (·.observe (.entered ⟨name, fields⟩))

def snapshot : Act (World σ) Snapshot :=
  atomic fun w => (.ok w.snapshot, w)

def publish (edit : Draft → Draft) : Act (World σ) Snapshot :=
  atomic fun w =>
    let w := w.publish edit
    (.ok w.snapshot, w)

def count (f : Tally → Tally) : Act (World σ) Unit :=
  modify fun w => { w with tally := f w.tally }

end Act

def Act.ofStorage (m : Act σ α) : Act (World σ) α :=
  m.within (·.storage) fun change w => { w with storage := change w.storage }

/--
Storage that knows nothing of the rest of the program, as a part of its state. Actions that call it
run one after the other.
-/
def Gateway.within (g : Gateway σ) : Gateway (World σ) where
  ask request := (g.ask request).ofStorage
  together := .inTurn

end ListKeeper
