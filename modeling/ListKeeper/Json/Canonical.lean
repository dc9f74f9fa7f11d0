import ListKeeper.Json.Printer

/-!
This module contains the canonical form of a JSON document: the fields of each object in the order
of their keys, the last of repeated ones, and numbers by value.
-/

namespace ListKeeper.Json

def insertField (key : String) (v : Json) : List (String × Json) → List (String × Json)
  | [] => [(key, v)]
  | (k, w) :: rest =>
    if key < k then (key, v) :: (k, w) :: rest
    else if key = k then (key, v) :: rest
    else (k, w) :: insertField key v rest

def sortFields (fields : List (String × Json)) : List (String × Json) :=
  fields.foldl (fun sorted field => insertField field.1 field.2 sorted) []

def canonicalNumber (n : Numeral) : Json :=
  match n.toInt? with
  | some i => .num (.ofInt i)
  | none =>
    match n.toDouble? with
    | some x => double x
    | none => .num n

mutual

def canonical : Json → Json
  | .null => .null
  | .bool b => .bool b
  | .num n => canonicalNumber n
  | .str s => .str s
  | .arr items => .arr (canonicalItems items)
  | .obj fields => .obj (sortFields (canonicalFields fields))
  | .broken => .broken

def canonicalItems : List Json → List Json
  | [] => []
  | v :: vs => canonical v :: canonicalItems vs

def canonicalFields : List (String × Json) → List (String × Json)
  | [] => []
  | (k, v) :: fields => (k, canonical v) :: canonicalFields fields

end

end ListKeeper.Json
