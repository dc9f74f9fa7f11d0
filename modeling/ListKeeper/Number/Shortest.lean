import ListKeeper.Number.Double
import ListKeeper.Number.Numeral

/-!
This module contains the decimal form of a number of the 64-bit binary format: the fewest digits
that lie nearer to it than to any other number of the format, and of those the nearest.
-/

namespace ListKeeper.Double

open Text

/--
The numbers that are read back as `mid`, as fractions with the common denominator `den`. The ends
`low` and `high` count as well when `closed`.
-/
structure Span where
  low : Nat
  mid : Nat
  high : Nat
  den : Nat
  closed : Bool

def spanOf (magnitude : Nat) : Span :=
  let field := magnitude / Nat.pow 2 52
  let fraction := magnitude % Nat.pow 2 52
  let m := if field = 0 then fraction else Nat.pow 2 52 + fraction
  let q : Int := ((max field 1 : Nat) : Int) - 1077
  let below := if fraction = 0 ∧ 1 < field then 1 else 2
  let scale := Nat.pow 2 q.toNat
  ⟨(4 * m - below) * scale, 4 * m * scale, (4 * m + 2) * scale, Nat.pow 2 (-q).toNat, m % 2 = 0⟩

def scaled (n den : Nat) (e : Int) : Nat :=
  n * Nat.pow 10 e.toNat / (den * Nat.pow 10 (-e).toNat)

def leadingPower (n den : Nat) : Int :=
  if den ≤ n then
    ((digits (n / den)).length : Int) - 1
  else
    -(((List.range 400).find? fun k => den ≤ n * Nat.pow 10 k).getD 400 : Int)

namespace Span

def holds (s : Span) (c : Nat) (e : Int) : Bool :=
  let x := c * Nat.pow 10 e.toNat * s.den
  let low := s.low * Nat.pow 10 (-e).toNat
  let high := s.high * Nat.pow 10 (-e).toNat
  if s.closed then low ≤ x && x ≤ high else low < x && x < high

/--
The decimal `(c + 1) * 10 ^ e` is nearer to the middle of the span than `c * 10 ^ e`, which is not
above it. On a tie the even one of the two is.
-/
def prefersNext (s : Span) (c : Nat) (e : Int) : Bool :=
  let mid := s.mid * Nat.pow 10 (-e).toNat
  let unit := Nat.pow 10 e.toNat * s.den
  let twice := (2 * c + 1) * unit
  twice < 2 * mid || (twice == 2 * mid && c % 2 == 1)

def nearest? (s : Span) (e : Int) : Option Nat :=
  let c := scaled s.mid s.den (-e)
  match s.holds c e, s.holds (c + 1) e with
  | true, true => some (if s.prefersNext c e then c + 1 else c)
  | true, false => some c
  | false, true => some (c + 1)
  | false, false => none

def shortest (s : Span) : Nat × Int :=
  let top := leadingPower s.mid s.den
  let found := (List.range 17).findSome? fun (k : Nat) =>
    (s.nearest? (top - (k : Int))).map fun c => (c, top - (k : Int))
  found.getD (0, 0)

end Span

def shortestDigits (magnitude : Nat) : List Char × Int :=
  let (c, e) := (spanOf magnitude).shortest
  let ds := digits c
  ((ds.reverse.dropWhile (· == '0')).reverse, e + (ds.length : Int) - 1)

structure Layout where
  firstPlain : Int
  lastPlain : Int

def layout : Layout := ⟨-5, 15⟩

def Layout.place (l : Layout) (negative : Bool) (ds : List Char) (power : Int) : Numeral :=
  if l.firstPlain ≤ power ∧ power ≤ l.lastPlain then
    if power < 0 then
      ⟨negative, ['0'], List.replicate (-power - 1).toNat '0' ++ ds, none⟩
    else
      let whole := ds.take (power.toNat + 1)
      let behind := ds.drop (power.toNat + 1)
      ⟨negative, whole ++ List.replicate (power.toNat + 1 - whole.length) '0',
        if behind.isEmpty then ['0'] else behind, none⟩
  else
    ⟨negative, ds.take 1, ds.drop 1, some power⟩

def toNumeral (x : Double) : Numeral :=
  if x.magnitude = 0 then
    ⟨x.isNegative, ['0'], ['0'], none⟩
  else
    let (ds, power) := shortestDigits x.magnitude
    layout.place x.isNegative ds power

end ListKeeper.Double
