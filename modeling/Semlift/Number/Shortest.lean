import Semlift.Number.Double

/-!
The shortest decimal digits of a double: among the decimals that round to it, those with the fewest
digits, and of these the nearest one.

A positive double is `m * 2 ^ e`; the reals that round to it form an interval around it, whose ends
belong to it when `m` is even. A decimal of `n` digits near the double lies on the grid of step
`10 ^ (k - n)`, where `k` is the number of places before the point. If any point of that grid lies
in the interval, one of the two neighbours of the double does.
-/

namespace Semlift.Number

/-- A positive double `m * 2 ^ e`; `binade` says that the gap below it is half the gap above. -/
structure Dyadic where
  m : Nat
  e : Int
  binade : Bool
  deriving DecidableEq, Repr

/-- The magnitude of a finite double from its sign-free bits; `none` for zero. -/
def Dyadic.ofBits? (bits : Nat) : Option Dyadic :=
  let fraction : Nat := bits % hiddenBit
  let biased : Nat := bits / hiddenBit % 0x800
  if biased = 0 then
    if fraction = 0 then none else some ⟨fraction, -1074, false⟩
  else some ⟨hiddenBit + fraction, (biased : Int) - 1075, fraction == 0 && biased != 1⟩

/-- A double and the ends of its rounding interval, over one denominator. -/
structure Interval where
  value : Nat
  low : Nat
  high : Nat
  den : Nat
  closed : Bool
  deriving DecidableEq, Repr

def Dyadic.interval (d : Dyadic) : Interval :=
  let scale := 1 <<< (d.e - 2).toNat
  { value := 4 * d.m * scale
    low := (4 * d.m - if d.binade then 1 else 2) * scale
    high := (4 * d.m + 2) * scale
    den := 1 <<< (2 - d.e).toNat
    closed := d.m % 2 == 0 }

/-- Whether `num / den` lies in the interval. -/
def Interval.contains (i : Interval) (num den : Nat) : Bool :=
  if i.closed then i.low * den ≤ num * i.den && num * i.den ≤ i.high * den
  else i.low * den < num * i.den && num * i.den < i.high * den

/-- The number of decimal places before the point: `10 ^ (k - 1) ≤ value < 10 ^ k`. -/
def Interval.places (i : Interval) : Int :=
  if i.den ≤ i.value then ((Nat.toDigits 10 (i.value / i.den)).length : Int)
  else
    let up := (Nat.toDigits 10 (i.den / i.value)).length
    if i.den ≤ i.value * Nat.pow 10 (up - 1) then 2 - (up : Int) else 1 - (up : Int)

/-- The neighbour on the grid of `n` digits that lies in the interval: of two the nearer, and the
even one where both are equally near. -/
def Interval.onGrid? (i : Interval) (k : Int) (n : Nat) : Option Nat :=
  let up := Nat.pow 10 ((n : Int) - k).toNat
  let down := Nat.pow 10 (k - (n : Int)).toNat
  let lower := i.value * up / (i.den * down)
  let rest := i.value * up - lower * (i.den * down)
  let hitLow := i.contains (lower * down) up
  let hitHigh := i.contains ((lower + 1) * down) up
  if hitLow && hitHigh then
    if 2 * rest < i.den * down then some lower
    else if i.den * down < 2 * rest then some (lower + 1)
    else some (if lower % 2 = 0 then lower else lower + 1)
  else if hitLow then some lower
  else if hitHigh then some (lower + 1)
  else none

/-- A decimal `0.d₁d₂… * 10 ^ places`, without zeros at the end. -/
structure Digits where
  digits : List Char
  places : Int
  deriving DecidableEq, Repr

/-- Drops the zeros at the end, and carries when a neighbour was rounded up to a power of ten. -/
def Digits.ofGrid (c : Nat) (k : Int) (n : Nat) : Digits :=
  let ds := Nat.toDigits 10 c
  ⟨(ds.reverse.dropWhile (· == '0')).reverse, k + ((ds.length : Int) - n)⟩

/-- Tries one digit, then two, and so on up to seventeen, which always suffice. -/
def Dyadic.shortest (d : Dyadic) : Digits :=
  let i := d.interval
  let k := i.places
  let found := (List.range 17).findSome? fun n => (i.onGrid? k (n + 1)).map (·, n + 1)
  let (c, n) := found.getD (0, 1)
  .ofGrid c k n

end Semlift.Number
