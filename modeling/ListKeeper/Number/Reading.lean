import ListKeeper.Number.Double
import ListKeeper.Number.Numeral

/-!
This module contains the number of the 64-bit binary format that a written number is read as. The
leading digits are collected as long as they fit into 64 bits, and then moved to their place by one
multiplication with or one division by a power of ten.
-/

namespace ListKeeper.Numeral

open Text

structure Collected where
  significand : Nat
  power : Int

def collect (n : Nat) : List Char → Nat × List Char
  | [] => (n, [])
  | c :: rest =>
    let next := 10 * n + digitValue c
    if next < UInt64.size then collect next rest else (n, c :: rest)

/--
The digits before the point that are not collected count as zeros, those behind it not at all.
-/
def collected (n : Numeral) : Collected :=
  let (whole, skipped) := collect 0 n.whole
  let (all, ignored) := collect whole n.fraction
  let behind : Int := ((n.fraction.length - ignored.length : Nat) : Int)
  ⟨all, (skipped.length : Int) - behind + n.exponent.getD 0⟩

def powerOfTen (k : Nat) : Double :=
  .ofFloat (Float.ofScientific 1 false k)

def shrink : (rounds : Nat) → Double → Nat → Double
  | 0, x, _ => x
  | rounds + 1, x, k =>
    if k ≤ 308 then x.div (powerOfTen k)
    else if x.magnitude = 0 then x
    else shrink rounds (x.div (powerOfTen 308)) (k - 308)

def place? (c : Collected) : Option Double :=
  let x := Double.ofNat c.significand
  if c.power < 0 then
    some (shrink 4 x c.power.natAbs)
  else if c.significand = 0 then
    some x
  else if 308 < c.power then
    none
  else
    let y := x.mul (powerOfTen c.power.toNat)
    if y.isFinite then some y else none

def toDouble? (n : Numeral) : Option Double :=
  (place? n.collected).map fun x => if n.negative then x.neg else x

end ListKeeper.Numeral
