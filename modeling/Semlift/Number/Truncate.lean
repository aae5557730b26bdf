import Semlift.Number.Layout

/-!
From a double to a 64-bit integer: the fraction is dropped. A double that no 64-bit integer is near
to becomes the least of them.

The remainder of a division of doubles with a whole quotient is exact: both doubles are whole
multiples of one power of two, and so is what is left; it has the sign of the dividend.
-/

namespace Semlift.Number

/-- The whole part of a magnitude. -/
def Dyadic.floor (d : Dyadic) : Nat :=
  if 0 ≤ d.e then d.m <<< d.e.toNat else d.m >>> (-d.e).toNat

def truncate (x : Double) : Int64 :=
  if x.isNaN || x.isInf then Int64.minValue
  else
    match Dyadic.ofBits? x.magnitude with
    | none => 0
    | some d =>
      let n : Int := if x.isNegative then -(d.floor : Int) else d.floor
      if Int64.minValue.toInt ≤ n && n ≤ Int64.maxValue.toInt then Int64.ofInt n
      else Int64.minValue

/-- The double nearest to an integer. -/
def ofInt64 (n : Int64) : Double := .ofFloat (Float.ofInt n.toInt)

/-- What is left of one magnitude when another is taken away as often as it fits. -/
def Dyadic.rest (a b : Dyadic) : Nat :=
  let e := min a.e b.e
  Double.encode ((a.m <<< (a.e - e).toNat) % (b.m <<< (b.e - e).toNat)) e

/-- The remainder for a divisor that is not zero. -/
def remainder (x y : Double) : Double :=
  if x.isNaN || y.isNaN || x.isInf then .noNumber false
  else if y.isInf then x
  else
    match Dyadic.ofBits? x.magnitude, Dyadic.ofBits? y.magnitude with
    | some a, some b => .ofMagnitude x.isNegative (a.rest b)
    | _, _ => x

end Semlift.Number
