import Semlift.Number.Read

/-!
Numbers as programs write them: blanks and a sign of either kind may stand in front, and a number
may be hexadecimal with a power of two for its exponent. What follows a number does not matter.
-/

namespace Semlift.Number

open Semlift.Text

/-- A number in a text. -/
inductive Literal where
  | plain (r : Reading)
  /-- A magnitude `m * 2 ^ e`. -/
  | binary (negative : Bool) (m : Nat) (e : Int)
  deriving DecidableEq, Repr

def hexDigitsValue (ds : List Char) : Nat := ds.foldl (fun n d => 16 * n + hexValue d) 0

/-- The power of two at the beginning of a text, zero with the whole text left when there is none.
-/
def takePower : List Char → Int × List Char
  | c :: cs =>
    if c = 'p' || c = 'P' then
      let (negative, ds) := match cs with
        | '-' :: r => (true, r)
        | '+' :: r => (false, r)
        | r => (false, r)
      let digits := ds.takeWhile Char.isDigit
      if digits.isEmpty then (0, c :: cs)
      else
        let n : Int := digitsValue digits
        (if negative then -n else n, ds.dropWhile Char.isDigit)
    else (0, c :: cs)
  | [] => (0, [])

/-- The hexadecimal digits behind `0x`, with what follows them. -/
def takeHexadecimal? (negative : Bool) : List Char → Option (Literal × List Char)
  | '0' :: x :: cs =>
    let whole := cs.takeWhile isHexDigit
    let (fraction, rest) := match cs.dropWhile isHexDigit with
      | '.' :: r => (r.takeWhile isHexDigit, r.dropWhile isHexDigit)
      | r => ([], r)
    if !(x = 'x' || x = 'X') || (whole.isEmpty && fraction.isEmpty) then none
    else
      let (e, rest) := takePower rest
      some (.binary negative (hexDigitsValue (whole ++ fraction)) (e - 4 * fraction.length), rest)
  | _ => none

/-- A number at the beginning of a text, with what follows it. -/
def takeLiteral? (cs : List Char) : Option (Literal × List Char) :=
  let (negative, cs) := match cs.dropWhile isBlank with
    | '-' :: r => (true, r)
    | '+' :: r => (false, r)
    | r => (false, r)
  match takeHexadecimal? negative cs with
  | some found => some found
  | none => (takeUnsigned? negative cs).map fun (r, rest) => (.plain r, rest)

def Literal.round (l : Literal) (f : BinaryFormat) : Rounded :=
  match l with
  | .plain r => r.round f
  | .binary negative m e =>
    let top := (m.log2 : Int) + e
    if m = 0 || top + 2 < f.least then .finite negative 0 f.least
    else if f.greatest + f.digits < top then .infinity negative
    else f.nearest negative (m <<< e.toNat) (1 <<< (-e).toNat)

/-- The double at the beginning of a text, whatever follows it; zero when there is none. -/
def literalDouble (text : String) : Double :=
  match takeLiteral? text.toList with
  | some (l, _) => .ofRounded (l.round .double)
  | none => .ofRounded (.finite false 0 BinaryFormat.double.least)

/-- The integer at the beginning of a text, whatever follows it; zero when there is none, and the
least or the greatest of 64 bits for one that is out of their range. -/
def literalInteger (text : String) : Int64 :=
  let value : Int := match text.toList.dropWhile isBlank with
    | '-' :: ds => -(digitsValue (ds.takeWhile Char.isDigit) : Int)
    | '+' :: ds => digitsValue (ds.takeWhile Char.isDigit)
    | ds => digitsValue (ds.takeWhile Char.isDigit)
  Int64.ofInt (max Int64.minValue.toInt (min Int64.maxValue.toInt value))

end Semlift.Number
