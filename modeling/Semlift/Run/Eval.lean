import Semlift.Program.ClassTable
import Semlift.Run.Operator
import Semlift.Store.State

/-!
The values of expressions and the places that locations name, in a frame and a heap.
-/

namespace Semlift.Run

open Semlift.Lang Semlift.Store

def readField (h : Heap) (field : String) : Value → Except Fault Value
  | .null => .error (.nullRead field)
  | .object r =>
    match h.fields? r with
    | none => .error (.dangling r)
    | some fs =>
      match fs.get? field with
      | none => .error (.unknownField field r)
      | some v => .ok v
  | v => .error (.badRead field v)

/-- The right operand of `and` and `or`, when the left one does not decide. -/
def rightTruth (op : BinaryOp) (l : Value) : Value → Except Fault Value
  | .bool b => .ok (.bool b)
  | r => .error (.badOperands op.text l r)

/-- The value of an expression. -/
def eval (h : Heap) (f : Frame) : Expr → Except Fault Value
  | .lit v => .ok v
  | .var name =>
    match f.locals.get? name with
    | some v => .ok v
    | none => .error (.unknownVariable name)
  | .own field => readField h field (.object f.owner)
  | .field object field => do readField h field (← eval h f object)
  | .this => .ok (.object f.owner)
  | .unary op operand => do applyUnary op (← eval h f operand)
  | .binary .and l r => do
    match ← eval h f l with
    | .bool false => return .bool false
    | .bool true => rightTruth .and (.bool true) (← eval h f r)
    | v => throw (.badOperand BinaryOp.and.text v)
  | .binary .or l r => do
    match ← eval h f l with
    | .bool true => return .bool true
    | .bool false => rightTruth .or (.bool false) (← eval h f r)
    | v => throw (.badOperand BinaryOp.or.text v)
  | .binary op l r => do
    let a ← eval h f l
    let b ← eval h f r
    applyBinary op a b

def evalAll (h : Heap) (f : Frame) (es : List Expr) : Except Fault (List Value) :=
  es.mapM (eval h f)

/-- The value of an expression that must be a string. -/
def evalString (h : Heap) (f : Frame) (what : String) (e : Expr) : Except Fault String := do
  match ← eval h f e with
  | .str s => return s
  | v => throw (.badQuestion what v)

/-- A place that a value can be written to: a variable of the frame or a field of an object. -/
inductive Slot where
  | variable (name : String)
  | field (r : ObjectRef) (name : String)
  deriving DecidableEq

def fieldSlot (t : Program.ClassTable) (field : String) : Value → Except Fault Slot
  | .null => .error (.nullWrite field)
  | .object r =>
    if (t.field? r.className field).isSome then .ok (.field r field)
    else .error (.undeclaredField field r.className)
  | v => .error (.badWrite field v)

def resolve (t : Program.ClassTable) (h : Heap) (f : Frame) : Loc → Except Fault Slot
  | .var name => .ok (.variable name)
  | .own field => fieldSlot t field (.object f.owner)
  | .field object field => do fieldSlot t field (← eval h f object)

/-- Writes a value to a place. -/
def Slot.write (v : Value) (f : Frame) (s : State) : Slot → Except Fault (Frame × State)
  | .variable name => .ok ({ f with locals := f.locals.assign name v }, s)
  | .field r name =>
    if (s.heap.fields? r).isSome then .ok (f, { s with heap := s.heap.write r name v })
    else .error (.dangling r)

end Semlift.Run
