import Semlift.Number.Double
import Semlift.Text.Byte

/-!
Reading decimal texts. A number is an optional minus sign, digits with an optional fraction and an
optional exponent, or the words for infinity and for no number in any case of letters. It is
refused when its magnitude is too large for a double or would become zero.
-/

namespace Semlift.Number

open Semlift.Text

/-- A decimal number `± digits * 10 ^ exponent`. -/
structure Decimal where
  negative : Bool
  mantissa : Nat
  exponent : Int
  deriving DecidableEq, Repr

inductive Reading where
  | decimal (d : Decimal)
  | infinity (negative : Bool)
  | nan (negative : Bool)
  deriving DecidableEq, Repr

/-- The exponent part at the beginning of a text, zero with the whole text left when there is none.
-/
def takeExponent : List Char → Int × List Char
  | c :: cs =>
    if c = 'e' || c = 'E' then
      let (negative, ds) := match cs with
        | '-' :: r => (true, r)
        | '+' :: r => (false, r)
        | r => (false, r)
      let digits := ds.takeWhile Char.isDigit
      if digits.isEmpty then (0, c :: cs)
      else
        let n : Int := digitsValue digits
        (if negative then -n else n, ds.dropWhile Char.isDigit)
    else (0, c :: cs)
  | [] => (0, [])

/-- An unsigned decimal at the beginning of a text, with what follows it. -/
def takeDecimal? (negative : Bool) (cs : List Char) : Option (Decimal × List Char) :=
  let whole := cs.takeWhile Char.isDigit
  let afterWhole := cs.dropWhile Char.isDigit
  let (fraction, rest) := match afterWhole with
    | '.' :: r => (r.takeWhile Char.isDigit, r.dropWhile Char.isDigit)
    | r => ([], r)
  if whole.isEmpty && fraction.isEmpty then none
  else
    let (e, rest) := takeExponent rest
    some (⟨negative, digitsValue (whole ++ fraction), e - fraction.length⟩, rest)

/-- The rest of a text after a word, whatever the case of its letters. -/
def afterWord? (word text : List Char) : Option (List Char) :=
  if (text.take word.length).map Char.toLower = word then some (text.drop word.length) else none

/-- What may follow the word for no number: a payload of letters, digits and underscores in
parentheses. -/
def afterPayload (cs : List Char) : List Char :=
  match cs with
  | '(' :: r =>
    match r.dropWhile (fun c => c.isAlphanum || c == '_') with
    | ')' :: rest => rest
    | _ => cs
  | _ => cs

/-- A number at the beginning of a text after its sign. -/
def takeUnsigned? (negative : Bool) (cs : List Char) : Option (Reading × List Char) :=
  match takeDecimal? negative cs with
  | some (d, rest) => some (.decimal d, rest)
  | none =>
    match afterWord? "nan".toList cs with
    | some rest => some (.nan negative, afterPayload rest)
    | none =>
      match afterWord? "infinity".toList cs with
      | some rest => some (.infinity negative, rest)
      | none => (afterWord? "inf".toList cs).map (.infinity negative, ·)

def takeNumber? : List Char → Option (Reading × List Char)
  | '-' :: cs => takeUnsigned? true cs
  | cs => takeUnsigned? false cs

/-- The number of a format nearest to a decimal: zero and infinity past the ends of the range. -/
def Decimal.round (d : Decimal) (f : BinaryFormat) : Rounded :=
  let places : Int := (Nat.toDigits 10 d.mantissa).length + d.exponent
  if d.mantissa = 0 || places < f.least then .finite d.negative 0 f.least
  else if f.greatest + f.digits < places then .infinity d.negative
  else f.nearest d.negative (d.mantissa * Nat.pow 10 d.exponent.toNat)
    (Nat.pow 10 (-d.exponent).toNat)

def Reading.round (r : Reading) (f : BinaryFormat) : Rounded :=
  match r with
  | .decimal d => d.round f
  | .infinity negative => .infinity negative
  | .nan negative => .nan negative

def Reading.double (r : Reading) : Double := .ofRounded (r.round .double)

/-- Whether a decimal is none that becomes zero or infinity by rounding. -/
def Decimal.inRange (d : Decimal) : Bool :=
  let x : Double := .ofRounded (d.round .double)
  d.mantissa = 0 || (!x.isZero && !x.isInf)

/-- The double that a whole text spells. -/
def readDouble? (cs : List Char) : Option Double :=
  match takeNumber? cs with
  | some (.decimal d, []) => if d.inRange then some (Reading.decimal d).double else none
  | some (r, []) => some r.double
  | _ => none

end Semlift.Number
