/-!
Rounding to binary formats: the nearest of the numbers `m * 2 ^ e` of a format, and of two equally
near ones the one with an even last digit. Doubles by their bits: they are added, compared and so on
as floating-point numbers, and the bits tell besides the sign of what is no number.
-/

namespace Semlift.Number

/-- How many binary digits the numbers of a format have, and the exponents of their last digit. -/
structure BinaryFormat where
  digits : Nat
  least : Int
  greatest : Int
  deriving DecidableEq, Repr

def BinaryFormat.double : BinaryFormat := ⟨53, -1074, 971⟩

/-- The format of eighty bits. -/
def BinaryFormat.extended : BinaryFormat := ⟨64, -16445, 16320⟩

/-- A number of a format: a magnitude `m * 2 ^ e`, or none. -/
inductive Rounded where
  | finite (negative : Bool) (m : Nat) (e : Int)
  | infinity (negative : Bool)
  | nan (negative : Bool)
  deriving DecidableEq, Repr

def Rounded.isNegative : Rounded → Bool
  | .finite negative .. | .infinity negative | .nan negative => negative

namespace BinaryFormat

/-- The quotient of two numbers, rounded to the nearest and of two equally near ones to the even
one. -/
def quotient (num den : Nat) : Nat :=
  let q := num / den
  let twice := 2 * (num % den)
  if den < twice || (twice = den && q % 2 = 1) then q + 1 else q

/-- The exponent of the first binary digit of `num / den`. -/
def leading (num den : Nat) : Int :=
  let e : Int := (num.log2 : Int) - den.log2
  if den <<< e.toNat ≤ num <<< (-e).toNat then e else e - 1

/-- The number nearest to `num / den`; infinity past the end of the range. -/
def nearest (f : BinaryFormat) (negative : Bool) (num den : Nat) : Rounded :=
  if num = 0 then .finite negative 0 f.least
  else
    let e := max (leading num den - (f.digits - 1)) f.least
    let m := quotient (num <<< (-e).toNat) (den <<< e.toNat)
    let (m, e) := if m = 1 <<< f.digits then (m / 2, e + 1) else (m, e)
    if f.greatest < e then .infinity negative else .finite negative m e

end BinaryFormat

/-! ### Doubles -/

/-- The bit of a double above its exponent. -/
def signBit : Nat := 0x8000000000000000

/-- The bit above the fraction, which normal doubles have without storing it. -/
def hiddenBit : Nat := 0x10000000000000

/-- The sign-free bits of infinity. -/
def infinityBits : Nat := 0x7ff0000000000000

structure Double where
  bits : UInt64
  deriving DecidableEq, Repr

namespace Double

def ofFloat (x : Float) : Double := ⟨x.toBits⟩

def toFloat (x : Double) : Float := Float.ofBits x.bits

/-- A double by its sign and its sign-free bits. -/
def ofMagnitude (negative : Bool) (bits : Nat) : Double :=
  ⟨UInt64.ofNat (bits + if negative then signBit else 0)⟩

/-- The sign-free bits. -/
def magnitude (x : Double) : Nat := x.bits.toNat % signBit

def isNegative (x : Double) : Bool := signBit ≤ x.bits.toNat

def isInf (x : Double) : Bool := x.magnitude == infinityBits

def isNaN (x : Double) : Bool := infinityBits < x.magnitude

/-- What is no number; its first fraction bit is set. -/
def noNumber (negative : Bool) : Double := ofMagnitude negative (infinityBits + hiddenBit / 2)

instance : Inhabited Double := ⟨ofMagnitude false 0⟩

/-- The sign-free bits of `m * 2 ^ e`, for `m` below `2 ^ 53` and `e` at least `-1074`. -/
def encode (m : Nat) (e : Int) : Nat :=
  if m = 0 then 0
  else
    let least : Int := max (e - (52 - m.log2 : Nat)) (-1074)
    let scaled := m <<< (e - least).toNat
    if scaled < hiddenBit then scaled
    else (least + 1075).toNat * hiddenBit + (scaled - hiddenBit)

def ofRounded : Rounded → Double
  | .finite negative m e => ofMagnitude negative (encode m e)
  | .infinity negative => ofMagnitude negative infinityBits
  | .nan negative => noNumber negative

def neg (x : Double) : Double := ofMagnitude (!x.isNegative) x.magnitude
def add (x y : Double) : Double := ofFloat (x.toFloat + y.toFloat)
def sub (x y : Double) : Double := ofFloat (x.toFloat - y.toFloat)
def mul (x y : Double) : Double := ofFloat (x.toFloat * y.toFloat)
def div (x y : Double) : Double := ofFloat (x.toFloat / y.toFloat)

/-- Equality of numbers: both zeros are equal, and what is no number equals nothing. -/
def same (x y : Double) : Bool := x.toFloat == y.toFloat

def less (x y : Double) : Bool := x.toFloat < y.toFloat

def isZero (x : Double) : Bool := x.magnitude == 0

/-- How two doubles are ordered; those of which neither is less count as equal. -/
def order (x y : Double) : Ordering :=
  if x.less y then .lt else if y.less x then .gt else .eq

end Double

end Semlift.Number
