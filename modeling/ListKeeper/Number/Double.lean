import ListKeeper.Text.Basic

/-!
This module contains numbers of the 64-bit binary format. They are kept as their bits, so equality
tells apart all that printing tells apart, and ordered by the total order of that format.
-/

namespace ListKeeper

structure Double where
  bits : UInt64
deriving DecidableEq, Repr

namespace Double

def toFloat (x : Double) : Float := Float.ofBits x.bits

def ofFloat (x : Float) : Double := ⟨x.toBits⟩

def ofNat (n : Nat) : Double := ofFloat (UInt64.ofNat n).toFloat

def neg (x : Double) : Double := ⟨x.bits ^^^ 0x8000000000000000⟩

def div (x y : Double) : Double := ofFloat (x.toFloat / y.toFloat)

def mul (x y : Double) : Double := ofFloat (x.toFloat * y.toFloat)

def isNegative (x : Double) : Bool := Nat.pow 2 63 ≤ x.bits.toNat

def magnitude (x : Double) : Nat := x.bits.toNat % Nat.pow 2 63

def isFinite (x : Double) : Bool := x.magnitude < 0x7FF0000000000000

def rank (x : Double) : Int :=
  if x.isNegative then -1 - (x.magnitude : Int) else x.magnitude

def hex (x : Double) : String :=
  String.ofList (Text.hexDigits 16 x.bits.toNat)

end Double
end ListKeeper
