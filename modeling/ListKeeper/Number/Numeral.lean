import ListKeeper.Text.Basic

/-!
This module contains numbers as they are written in JSON: a sign, digits before and behind the
point, and a power of ten.
-/

namespace ListKeeper

structure Numeral where
  negative : Bool
  whole : List Char
  fraction : List Char
  exponent : Option Int
deriving DecidableEq, Repr

namespace Numeral

open Text

def ofNat (n : Nat) : Numeral :=
  ⟨false, digits n, [], none⟩

def ofInt (i : Int) : Numeral :=
  ⟨i < 0, digits i.natAbs, [], none⟩

def write (n : Numeral) : List Char :=
  (if n.negative then ['-'] else []) ++ n.whole ++
    (if n.fraction.isEmpty then [] else '.' :: n.fraction) ++
    match n.exponent with
    | none => []
    | some e => 'e' :: (if e < 0 then '-' else '+') :: digits e.natAbs

def readWhole : List Char → Option (List Char × List Char)
  | '0' :: rest => some (['0'], rest)
  | cs =>
    match takeDigits cs.length cs with
    | ([], _) => none
    | (ds, rest) => some (ds, rest)

def readFraction : List Char → Option (List Char × List Char)
  | '.' :: rest =>
    match takeDigits rest.length rest with
    | ([], _) => none
    | (ds, rest) => some (ds, rest)
  | cs => some ([], cs)

def readPower (negative : Bool) (cs : List Char) : Option (Option Int × List Char) :=
  match takeDigits cs.length cs with
  | ([], _) => none
  | (ds, rest) =>
    let n : Int := digitsValue ds
    some (some (if negative then -n else n), rest)

def readExponent : List Char → Option (Option Int × List Char)
  | 'e' :: rest | 'E' :: rest =>
    match rest with
    | '-' :: rest => readPower true rest
    | '+' :: rest => readPower false rest
    | _ => readPower false rest
  | cs => some (none, cs)

def read (cs : List Char) : Option (Numeral × List Char) := do
  let (negative, cs) :=
    match cs with
    | '-' :: rest => (true, rest)
    | _ => (false, cs)
  let (whole, cs) ← readWhole cs
  let (fraction, cs) ← readFraction cs
  let (exponent, cs) ← readExponent cs
  return (⟨negative, whole, fraction, exponent⟩, cs)

def toInt? (n : Numeral) : Option Int :=
  if n.fraction.isEmpty && n.exponent.isNone then
    let v := digitsValue n.whole
    if n.negative then
      if 0 < v ∧ v ≤ Nat.pow 2 63 then some (-(v : Int)) else none
    else
      if v < UInt64.size then some v else none
  else
    none

end Numeral
end ListKeeper
