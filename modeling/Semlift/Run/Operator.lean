import Semlift.Number.Truncate
import Semlift.Run.Fault

/-!
The operators of the language. Integers are words of 64 bits and wrap around; an operation of an
integer and a double is one of doubles.
-/

namespace Semlift.Run

open Semlift.Lang Semlift.Number

/-- The integers or doubles of two numbers. -/
inductive Numbers where
  | ints (a b : Int64)
  | doubles (x y : Double)

/-- The double of a number. -/
def asDouble? : Value → Option Double
  | .int n => some (ofInt64 n)
  | .double x => some x
  | _ => none

/-- Two numbers as integers, or as doubles if one of them is. -/
def numbers? : Value → Value → Option Numbers
  | .int a, .int b => some (.ints a b)
  | l, r => do return .doubles (← asDouble? l) (← asDouble? r)

/-- Numbers are equal by their value, objects by their serial number. -/
def sameValue (l r : Value) : Bool :=
  match numbers? l r with
  | some (.ints a b) => a == b
  | some (.doubles x y) => x.same y
  | none =>
    match l, r with
    | .null, .null => true
    | .bool a, .bool b => a == b
    | .str s, .str t => s == t
    | .object a, .object b => a.serial == b.serial
    | _, _ => false

/-- How two values are ordered, for numbers and for strings. Doubles of which neither is less count
as equal. -/
def order? (l r : Value) : Option Ordering :=
  match numbers? l r with
  | some (.ints a b) => some (compare a b)
  | some (.doubles x y) => some (x.order y)
  | none =>
    match l, r with
    | .str s, .str t => some (compare s t)
    | _, _ => none

/-- A string in a concatenation stands for itself, any other value for its text. -/
def concatPart : Value → String
  | .str s => s
  | v => v.text

/-- Addition, subtraction and multiplication, and division by a divisor that is not zero. -/
structure Arithmetic where
  ints : Int64 → Int64 → Int64
  doubles : Double → Double → Double
  divides : Bool

def addition : Arithmetic := ⟨(· + ·), .add, false⟩
def subtraction : Arithmetic := ⟨(· - ·), .sub, false⟩
def multiplication : Arithmetic := ⟨(· * ·), .mul, false⟩
def division : Arithmetic := ⟨(· / ·), .div, true⟩
def remainder : Arithmetic := ⟨(· % ·), Number.remainder, true⟩

def Arithmetic.apply (a : Arithmetic) (op : String) (l r : Value) : Except Fault Value :=
  match numbers? l r with
  | none => .error (.badOperands op l r)
  | some (.ints m n) =>
    if a.divides && n == 0 then .error .divisionByZero else .ok (.int (a.ints m n))
  | some (.doubles x y) =>
    if a.divides && y.isZero then .error .divisionByZero else .ok (.double (a.doubles x y))

def comparison (holds : Ordering → Bool) (op : String) (l r : Value) : Except Fault Value :=
  match order? l r with
  | some o => .ok (.bool (holds o))
  | none => .error (.badOperands op l r)

def isString : Value → Bool
  | .str _ => true
  | _ => false

/-- The value of an operator for the values of both operands. -/
def applyBinary (op : BinaryOp) (l r : Value) : Except Fault Value :=
  match op with
  | .add =>
    if isString l || isString r then .ok (.str (concatPart l ++ concatPart r))
    else addition.apply op.text l r
  | .sub => subtraction.apply op.text l r
  | .mul => multiplication.apply op.text l r
  | .div => division.apply op.text l r
  | .mod => remainder.apply op.text l r
  | .eq => .ok (.bool (sameValue l r))
  | .ne => .ok (.bool (!sameValue l r))
  | .lt => comparison Ordering.isLT op.text l r
  | .le => comparison Ordering.isLE op.text l r
  | .gt => comparison Ordering.isGT op.text l r
  | .ge => comparison Ordering.isGE op.text l r
  | .and | .or => .error (.badOperands op.text l r)

def applyUnary : UnaryOp → Value → Except Fault Value
  | .not, .bool b => .ok (.bool (!b))
  | .negate, .int n => .ok (.int (-n))
  | .negate, .double x => .ok (.double x.neg)
  | op, v => .error (.badOperand op.text v)

end Semlift.Run
