import ListKeeper.Json.Basic
import ListKeeper.Time.Rfc3339

/-!
This module contains how records are read from JSON documents: from an object by the names of the
fields, or from an array by their places, and how points in time are.
-/

namespace ListKeeper.Json

/--
What a document holds for a field of a record. An object may leave a field out; an array may end
before its place.
-/
inductive Slot where
  | given (v : Json)
  | omitted
  | exhausted

abbrev Fields := String → Slot

def keysOnce (names : List String) (fields : List (String × Json)) : Bool :=
  names.all fun name => (fields.filter fun field => field.1 == name).length ≤ 1

def record? (names : List String) : Json → Option Fields
  | .obj fields =>
    if keysOnce names fields then
      some fun name =>
        match fields.lookup name with
        | some v => .given v
        | none => .omitted
    else
      none
  | .arr items =>
    if items.length ≤ names.length then
      some fun name =>
        match (names.zip items).lookup name with
        | some v => .given v
        | none => .exhausted
    else
      none
  | _ => none

namespace Slot

def required (read : Json → Option α) : Slot → Option α
  | .given v => read v
  | _ => none

def optional (read : Json → Option α) : Slot → Option (Option α)
  | .given v => v.nullable? read
  | .omitted => some none
  | .exhausted => none

def orElse (read : Json → Option α) (a : α) : Slot → Option α
  | .given v => read v
  | _ => some a

end Slot
def time (t : Timestamp) : Json := .str t.toText

def time? (j : Json) : Option Timestamp :=
  j.str?.bind Timestamp.ofText?

end ListKeeper.Json
