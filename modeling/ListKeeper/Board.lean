import ListKeeper.Draft

/-!
This module contains the published state. A publish replaces the whole snapshot, raises its version
by one and computes the view anew, so nobody sees half of a change.
-/

namespace ListKeeper

structure Snapshot where
  lists : List Checklist
  view : List Checklist
  criteria : Criteria
  loading : Bool
  error : Option String
  version : Nat
deriving DecidableEq, Repr

namespace Snapshot

def initial : Snapshot where
  lists := []
  view := []
  criteria := .initial
  loading := false
  error := none
  version := 0

def findList? (s : Snapshot) (id : String) : Option Checklist :=
  s.lists.find? (·.id == id)

def positionOf? (s : Snapshot) (id : String) : Option Nat :=
  s.lists.findIdx? (·.id == id)

def draft (s : Snapshot) : Draft :=
  ⟨s.lists, s.criteria, s.loading, s.error⟩

/--
The snapshot that follows when a draft is published at the time `now`. It is the one that the
program shows when it can be told.
-/
def next (s : Snapshot) (now : Timestamp) (d : Draft) : Snapshot where
  lists := d.lists
  view := d.criteria.view now d.lists
  criteria := d.criteria
  loading := d.loading
  error := d.error
  version := s.version + 1

/--
It can be told which lists the snapshot shows. Publishing any other one breaks the call down.
-/
def isTold (s : Snapshot) (now : Timestamp) : Bool :=
  (s.criteria.view? now s.lists).isSome

end Snapshot

structure Board where
  now : Timestamp
  snapshot : Snapshot
  closed : Bool
deriving DecidableEq, Repr

namespace Board

def initial (now : Timestamp) : Board :=
  ⟨now, .initial, false⟩

def publish (b : Board) (edit : Draft → Draft) : Board :=
  { b with snapshot := b.snapshot.next b.now (edit b.snapshot.draft) }

def reset (b : Board) : Board :=
  b.publish (·.cleared)

def close (b : Board) : Board :=
  { b with closed := true }

end Board

structure Subscription where
  seen : Nat
deriving DecidableEq, Repr

inductive Awaited where
  | changed (snapshot : Snapshot)
  | pending
  | closed
deriving DecidableEq, Repr

namespace Subscription

def start (b : Board) : Subscription :=
  ⟨b.snapshot.version⟩

def latest (_ : Subscription) (b : Board) : Snapshot × Subscription :=
  (b.snapshot, ⟨b.snapshot.version⟩)

/--
Wait for a snapshot not seen before. One that is there is delivered even when the board is closed.
-/
def poll (s : Subscription) (b : Board) : Awaited × Subscription :=
  if b.snapshot.version = s.seen then
    (if b.closed then .closed else .pending, s)
  else
    (.changed b.snapshot, ⟨b.snapshot.version⟩)

end Subscription
end ListKeeper
