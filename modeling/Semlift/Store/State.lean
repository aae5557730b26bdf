import Semlift.Lang.Stmt
import Semlift.Store.Heap
import Semlift.Store.Simulation

/-!
Everything that changes while a program runs: the stack of frames, the heap, the simulation units
and the numbers given out.
-/

namespace Semlift.Store

open Semlift.Lang

/-- A running body: the statement still to be executed, the local variables and the object it runs
on. The frame of a constructor gives no value to its caller. -/
structure Frame where
  active : Option Stmt
  locals : Fields
  owner : ObjectRef
  id : Nat
  returnsValue : Bool
  deriving DecidableEq

structure State where
  /-- The running frame first. -/
  stack : List Frame
  heap : Heap
  simulation : Simulation
  /-- The object that owns the main block. -/
  root : Option ObjectRef
  nextFrame : Nat
  deriving DecidableEq

namespace State

def empty : State := ⟨[], .empty, [], none, 0⟩

instance : Inhabited State := ⟨empty⟩

/-- The number of the next frame, which is used up. -/
def takeFrameId (s : State) : Nat × State := (s.nextFrame, { s with nextFrame := s.nextFrame + 1 })

def push (s : State) (f : Frame) : State := { s with stack := f :: s.stack }

def noFrame (place : String) : Failure := .broken place "stack is empty"

def top (s : State) : Except Failure Frame :=
  match s.stack with
  | [] => .error (noFrame "RuntimeState::Top")
  | f :: _ => .ok f

def pop (s : State) : Except Failure (Frame × State) :=
  match s.stack with
  | [] => .error (noFrame "RuntimeState::PopFrame")
  | f :: more => .ok (f, { s with stack := more })

def fieldLine (e : String × Value) : String := "    " ++ e.1 ++ " = " ++ e.2.text ++ "\n"

def objectText (o : Object) : String :=
  "  " ++ o.ref.name ++ " : " ++ o.ref.className ++ "\n" ++ String.join (o.fields.map fieldLine)

def frameText (f : Frame) : String :=
  "  frame " ++ Number.natText f.id ++ " on " ++ f.owner.name ++ "\n" ++
    String.join (f.locals.map fieldLine) ++
    match f.active with
    | none => ""
    | some s => "    next: " ++ s.text ++ "\n"

/-- The heap, then the stack with the running frame first. -/
def text (s : State) : String :=
  "Heap:\n" ++ String.join (s.heap.objects.map objectText) ++ "Stack:\n" ++
    String.join (s.stack.map frameText)

end State

end Semlift.Store
