import ListKeeper.Criteria.Basic

/-!
This module contains the collection of lists that a publish may change: lists in a fixed order, at
most one of them with a given id when all changes go through the operations below.
-/

namespace ListKeeper

structure Draft where
  lists : List Checklist
  criteria : Criteria
  loading : Bool
  error : Option String
deriving DecidableEq, Repr

namespace Draft

def positionOf? (d : Draft) (id : String) : Option Nat :=
  d.lists.findIdx? (·.id == id)

def upsert (d : Draft) (list : Checklist) : Draft :=
  match d.positionOf? list.id with
  | some i => { d with lists := d.lists.set i list }
  | none => { d with lists := d.lists ++ [list] }

def insertAt (d : Draft) (i : Nat) (list : Checklist) : Draft :=
  match d.positionOf? list.id with
  | some j => { d with lists := d.lists.set j list }
  | none => { d with lists := d.lists.insertIdx (min i d.lists.length) list }

def remove (d : Draft) (id : String) : Option Checklist × Draft :=
  match d.positionOf? id with
  | some i => (d.lists[i]?, { d with lists := d.lists.eraseIdx i })
  | none => (none, d)

def modify (d : Draft) (id : String) (f : Checklist → Checklist) : Bool × Draft :=
  match d.positionOf? id with
  | some i => (true, { d with lists := d.lists.modify i f })
  | none => (false, d)

def cleared (d : Draft) : Draft :=
  { d with lists := [], loading := false, error := none }

end Draft
end ListKeeper
