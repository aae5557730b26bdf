import Semlift.Number.Shortest

/-!
How a double is written: its shortest digits, with a point from `0.0001` up to sixteen places and
with an exponent of at least two digits beyond; a number that looks whole gets `.0`.
-/

namespace Semlift.Number

/-- The decisions of the decimal format. -/
structure Layout where
  /-- Exponents of the first digit that are still written with a point. -/
  least : Int
  greatest : Int
  /-- The fewest digits of an exponent. -/
  exponentDigits : Nat

def Layout.double : Layout := ⟨-4, 15, 2⟩

def zeros (n : Nat) : List Char := List.replicate n '0'

def Layout.exponent (l : Layout) (e : Int) : List Char :=
  let ds := Nat.toDigits 10 e.natAbs
  'e' :: (if e < 0 then '-' else '+') :: zeros (l.exponentDigits - ds.length) ++ ds

def Layout.write (l : Layout) (d : Digits) : List Char :=
  let e := d.places - 1
  if l.least ≤ e && e ≤ l.greatest then
    if d.places ≤ 0 then '0' :: '.' :: zeros (-d.places).toNat ++ d.digits
    else
      let whole := d.digits.take d.places.toNat
      let rest := d.digits.drop d.places.toNat
      whole ++ zeros (d.places.toNat - whole.length) ++ (if rest.isEmpty then [] else '.' :: rest)
  else
    d.digits.take 1 ++ (if d.digits.length ≤ 1 then [] else '.' :: d.digits.drop 1) ++ l.exponent e

/-- A double without the mark that tells it from an integer. -/
def bareText (x : Double) : List Char :=
  (if x.isNegative then ['-'] else []) ++
    if x.isNaN then ['n', 'a', 'n']
    else if x.isInf then ['i', 'n', 'f']
    else match Dyadic.ofBits? x.magnitude with
      | some d => Layout.double.write d.shortest
      | none => ['0']

/-- The text of a double: a point, an exponent or a letter `n` always tells it from an integer. -/
def doubleText (x : Double) : String :=
  let text := bareText x
  String.ofList (if text.any (fun c => c == '.' || c == 'e' || c == 'E' || c == 'n') then text
    else text ++ ['.', '0'])

/-- The text of a natural number. -/
def natText (n : Nat) : String := String.ofList (Nat.toDigits 10 n)

/-- The text of an integer, with a minus sign below zero. -/
def intText (i : Int) : String := if i < 0 then "-" ++ natText i.natAbs else natText i.toNat

end Semlift.Number
