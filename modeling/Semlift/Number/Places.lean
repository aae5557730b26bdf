import Semlift.Number.Double

/-!
Numbers with a wanted count of places: with a point, with an exponent, as the shorter of both, or in
hexadecimal. All are rounded from the exact value, and a tie goes to the even digit.
-/

namespace Semlift.Number

inductive RealStyle where
  | fixed
  | scientific
  | general
  | hexadecimal
  deriving DecidableEq, Repr

/-- How a number is to be written; `keepsPoint` keeps a point and zeros that nothing needs. -/
structure RealLayout where
  style : RealStyle
  precision : Option Nat
  keepsPoint : Bool
  deriving DecidableEq, Repr

/-- Digits with a point in front of the last places. -/
def withPoint (keepsPoint : Bool) (places : Nat) (ds : List Char) : List Char :=
  let whole := ds.take (ds.length - places)
  let fraction := ds.drop (ds.length - places)
  whole ++ if fraction.isEmpty && !keepsPoint then [] else '.' :: fraction

/-- A number in decimal digits, at least so many. -/
def paddedDigits (least n : Nat) : List Char :=
  let ds := Nat.toDigits 10 n
  List.replicate (least - ds.length) '0' ++ ds

/-- How many places the whole part of a positive `num / den` takes; zero or less for one below
`1`. -/
def wholePlaces (num den : Nat) : Int :=
  if den ≤ num then ((Nat.toDigits 10 (num / den)).length : Int)
  else
    let up := (Nat.toDigits 10 (den / num)).length
    if den ≤ num * Nat.pow 10 (up - 1) then 2 - (up : Int) else 1 - (up : Int)

/-- The digits of `num / den`, one in front of the point and so many behind it, and the exponent of
the first one. -/
def scientificDigits (places num den : Nat) : List Char × Int :=
  if num = 0 then (List.replicate (places + 1) '0', 0)
  else
    let e := wholePlaces num den - 1
    let shift : Int := places - e
    let n := BinaryFormat.quotient (num * Nat.pow 10 shift.toNat) (den * Nat.pow 10 (-shift).toNat)
    let ds := Nat.toDigits 10 n
    if places + 1 < ds.length then (ds.take (places + 1), e + 1) else (ds, e)

def exponentText (mark : Char) (least : Nat) (e : Int) : List Char :=
  mark :: (if e < 0 then '-' else '+') :: paddedDigits least e.natAbs

/-- Digits without the zeros at their end, as far as these stand behind the point. -/
def dropZeros (places : Nat) (ds : List Char) : List Char × Nat :=
  let zeros := min places (ds.reverse.takeWhile (· == '0')).length
  (ds.take (ds.length - zeros), places - zeros)

def RealLayout.general (l : RealLayout) (num den : Nat) : List Char :=
  let precision := max (l.precision.getD 6) 1
  let (ds, e) := scientificDigits (precision - 1) num den
  let trim (places : Nat) (ds : List Char) : List Char × Nat :=
    if l.keepsPoint then (ds, places) else dropZeros places ds
  if -4 ≤ e && e < precision then
    let places := (precision - 1 - e).toNat
    let n := BinaryFormat.quotient (num * Nat.pow 10 places) den
    let (ds, places) := trim places (paddedDigits (places + 1) n)
    withPoint l.keepsPoint places ds
  else
    let (ds, places) := trim (precision - 1) ds
    withPoint l.keepsPoint places ds ++ exponentText 'e' 2 e

/-- The hexadecimal digits of a number below a power of 16. -/
def hexPlaces (places n : Nat) : List Char :=
  let ds := Nat.toDigits 16 n
  List.replicate (places - ds.length) '0' ++ ds

/-- A number in hexadecimal: one digit in front of the point, as many bits behind it as are left
after the first digit, and a power of two. -/
def RealLayout.hexadecimal (l : RealLayout) (f : BinaryFormat) (m : Nat) (e : Int) : List Char :=
  let places := (f.digits - 1) / 4
  let e := if m = 0 then 0 else e + 4 * places
  let (m, places) := match l.precision with
    | some p =>
      if p < places then (BinaryFormat.quotient m (1 <<< (4 * (places - p))), p)
      else (m <<< (4 * (p - places)), p)
    | none =>
      let (ds, kept) := dropZeros places (hexPlaces (places + 1) m)
      (m >>> (4 * (hexPlaces (places + 1) m).length - 4 * ds.length), kept)
  let (m, e) := if 16 <<< (4 * places) ≤ m then (m >>> 4, e + 4) else (m, e)
  let ds := hexPlaces (places + 1) m
  ['0', 'x'] ++ withPoint l.keepsPoint places ds ++ exponentText 'p' 1 e

/-- A number without its sign. -/
def RealLayout.write (l : RealLayout) (f : BinaryFormat) : Rounded → List Char
  | .infinity _ => ['i', 'n', 'f']
  | .nan _ => ['n', 'a', 'n']
  | .finite _ m e =>
    let num := m <<< e.toNat
    let den := 1 <<< (-e).toNat
    match l.style with
    | .fixed =>
      let places := l.precision.getD 6
      let n := BinaryFormat.quotient (num * Nat.pow 10 places) den
      withPoint l.keepsPoint places (paddedDigits (places + 1) n)
    | .scientific =>
      let places := l.precision.getD 6
      let (ds, e) := scientificDigits places num den
      withPoint l.keepsPoint places ds ++ exponentText 'e' 2 e
    | .general => l.general num den
    | .hexadecimal => l.hexadecimal f m e

end Semlift.Number
