import ListKeeper.Number.Reading
import ListKeeper.Number.Shortest

/-!
This module contains JSON documents as trees. A tree keeps the fields of an object in the order
they are written in, with repetitions, and numbers as they are written.
-/

namespace ListKeeper

/--
A JSON document. A string or an object key with an escape that is half of a surrogate pair stands
for no text: the document around it is sound, but the string, or the object with that key, is
`broken` and cannot be used.
-/
inductive Json where
  | null
  | bool (b : Bool)
  | num (n : Numeral)
  | str (s : String)
  | arr (items : List Json)
  | obj (fields : List (String × Json))
  | broken
deriving Inhabited

namespace Json

def nat (n : Nat) : Json := .num (.ofNat n)

def double (x : Double) : Json :=
  if x.isFinite then .num x.toNumeral else .null

def opt (write : α → Json) : Option α → Json
  | none => .null
  | some a => write a

def str? : Json → Option String
  | .str s => some s
  | _ => none

def bool? : Json → Option Bool
  | .bool b => some b
  | _ => none

def int? : Json → Option Int
  | .num n => n.toInt?
  | _ => none

def natBelow? (bound : Nat) (j : Json) : Option Nat :=
  match j.int? with
  | some (.ofNat n) => if n < bound then some n else none
  | _ => none

def word64? (j : Json) : Option UInt64 :=
  (j.natBelow? UInt64.size).map UInt64.ofNat

def word32? (j : Json) : Option UInt32 :=
  (j.natBelow? UInt32.size).map UInt32.ofNat

def double? : Json → Option Double
  | .num n =>
    match n.toInt? with
    | some i => some (if i < 0 then (Double.ofNat i.natAbs).neg else .ofNat i.natAbs)
    | none => n.toDouble?
  | _ => none

def list? (read : Json → Option α) : Json → Option (List α)
  | .arr items => items.mapM read
  | _ => none

def entries? (read : Json → Option α) : Json → Option (List (String × α))
  | .obj fields => fields.mapM fun (k, v) => (read v).map fun a => (k, a)
  | _ => none

def nullable? (read : Json → Option α) : Json → Option (Option α)
  | .null => some none
  | j => (read j).map some

def field? (j : Json) (key : String) : Option Json :=
  match j with
  | .obj fields => fields.lookup key
  | _ => none

/--
A name out of a fixed set is written as a string, and may also be written as an object with that
name as its only key and `null` as its value.
-/
def name? : Json → Option String
  | .str s => some s
  | .obj [(s, .null)] => some s
  | _ => none

end Json
end ListKeeper
