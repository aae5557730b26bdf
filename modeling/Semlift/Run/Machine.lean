import Semlift.Run.Exec
import Semlift.Store.Collect

/-!
A program that runs, one statement a step. Between two steps the state can be looked at, asked and
changed. A step with a fault leaves the stack as it was and names the statement that failed.
-/

namespace Semlift.Run

open Semlift.Lang Semlift.Store Semlift.Program

structure Machine where
  table : ClassTable
  base : Knowledge.Base
  view : Knowledge.View
  /-- How many steps lie between two collections; zero for no collection. -/
  gcInterval : Nat
  state : State
  /-- The steps done so far. -/
  steps : Nat
  /-- All that was printed so far. -/
  printed : String

structure Outcome where
  /-- Whether anything is left to run. -/
  continues : Bool
  /-- Whether a breakpoint was executed. -/
  breakpoint : Bool
  deriving DecidableEq, Repr

/-- What a machine cannot be started without. -/
inductive Missing where
  | program
  | knowledge
  | output
  deriving DecidableEq, Repr

def Missing.diagnostic : Missing → Diagnostic
  | .program => .error "cannot start: the static table is empty"
  | .knowledge => .error "cannot start: no semantic bridge"
  | .output => .error "cannot start: no output stream"

def notWaiting (caller : Frame) : Failure :=
  .broken "Interpreter::FinishFrame"
    ("caller frame " ++ Number.natText caller.id ++ " is not waiting for a value")

def alreadyFinished (finished : Frame) : Failure :=
  .broken "Interpreter::FinishFrame"
    ("frame " ++ Number.natText finished.id ++ " returned into a finished frame")

/-- A statement that waits for a value, with the value given to it: the target is assigned, or
nothing is done without one. -/
def resume (v : Value) : Stmt → Option Stmt
  | .seq _ first rest => (resume v first).map (.seq (-1) · rest)
  | .store line none => some (.skip line)
  | .store line (some target) => some (.assign line target (.lit v))
  | _ => none

/-- Gives the value of a finished frame to the frame below it, if it has to give one. -/
def finish (finished : Frame) (v : Value) (s : State) : Except Failure State :=
  match finished.returnsValue, s.stack with
  | true, caller :: below =>
    match caller.active with
    | none => .error (alreadyFinished finished)
    | some waiting =>
      match resume v waiting with
      | none => .error (notWaiting caller)
      | some next => .ok { s with stack := { caller with active := some next } :: below }
  | _, _ => .ok s

/-- The stack after a statement of a frame that was taken from it. -/
def Effect.commit (e : Effect) : Except Failure State :=
  match e.action with
  | .proceed none _ => finish e.frame .null e.state
  | .proceed (some next) _ => .ok (e.state.push { e.frame with active := some next })
  | .spawn callee residual =>
    .ok ((e.state.push { e.frame with active := residual }).push callee)
  | .ret v => finish e.frame v e.state

def Effect.breakpoint (e : Effect) : Bool :=
  match e.action with
  | .proceed _ b => b
  | _ => false

namespace Machine

def context (m : Machine) : Context := ⟨m.table, m.base, m.view⟩

def isDone (m : Machine) : Bool := m.state.stack.isEmpty

/-- A machine before its first step: the object that owns the main block exists, and the main block
is the only frame. -/
def load (t : ClassTable) (b : Knowledge.Base) (v : Knowledge.View) (gcInterval : Nat) : Machine :=
  let (r, heap) := Heap.empty.allocate entryClass []
  let (id, s) := { State.empty with heap := heap, root := some r }.takeFrameId
  ⟨t, b, v, gcInterval, s.push ⟨t.main, [], r, id, false⟩, 0, ""⟩

/-- Starts a machine, if all that it needs is there. -/
def start (t : Option ClassTable) (b : Option Knowledge.Base) (hasOutput : Bool)
    (v : Knowledge.View) (gcInterval : Nat) : Except Missing Machine :=
  match t, b with
  | none, _ => .error .program
  | some t, b =>
    if t.isEmpty then .error .program
    else
      match b with
      | none => .error .knowledge
      | some b => if hasOutput then .ok (load t b v gcInterval) else .error .output

def collect (m : Machine) : Nat × Machine :=
  let (n, s) := m.state.collect
  (n, { m with state := s })

/-- Collects after every so many steps. -/
def collectIfDue (m : Machine) : Machine :=
  if m.gcInterval ≠ 0 ∧ m.steps % m.gcInterval = 0 then m.collect.2 else m

/-- The machine after a step that was carried out. -/
def settled (m : Machine) (s : State) (breakpoint : Bool) : Except Failure Outcome × Machine :=
  let m := collectIfDue { m with state := s }
  (.ok ⟨!m.isDone, breakpoint⟩, m)

/-- A step of a frame that was taken from the stack and has nothing left to execute. -/
def stepFinished (m : Machine) (f : Frame) (s : State) : Except Failure Outcome × Machine :=
  match finish f .null s with
  | .error e => (.error e, { m with state := s })
  | .ok s => settled { m with steps := m.steps + 1 } s false

/-- A step of a frame that was taken from the stack with a statement to execute. -/
def stepActive (m : Machine) (f : Frame) (s : State) (stmt : Stmt) :
    Except Failure Outcome × Machine :=
  let effect := exec m.context f s stmt
  let m := { m with base := knowledgeAfter m.context f s stmt }
  match effect with
  | .error (.failure e) => (.error e, { m with state := s })
  | .error (.fault fault left) =>
    (.error (.reported (fault.diagnostic.atStatement stmt.headSpan)),
      { m with state := left.push f })
  | .ok e =>
    let m := { m with steps := m.steps + 1, printed := m.printed ++ e.printed }
    match e.commit with
    | .error err => (.error err, { m with state := e.state })
    | .ok s => settled m s e.breakpoint

def step (m : Machine) : Except Failure Outcome × Machine :=
  match m.state.stack with
  | [] => (.ok ⟨false, false⟩, m)
  | f :: below =>
    let s := { m.state with stack := below }
    match f.active with
    | none => m.stepFinished f s
    | some stmt => m.stepActive f s stmt

/-- Steps until an outcome is wanted, nothing is left to run, a step fails or a limit is reached;
the last outcome is given. -/
def runUntil (wanted : Outcome → Bool) : (limit : Nat) → Outcome → Machine →
    Except Failure Outcome × Machine
  | 0, last, m => (.ok last, m)
  | n + 1, last, m =>
    if m.isDone then (.ok last, m)
    else
      match m.step with
      | (.error e, m) => (.error e, m)
      | (.ok o, m) => if wanted o then (.ok o, m) else runUntil wanted n o m

/-- At most so many steps. -/
def run (m : Machine) (limit : Nat) : Except Failure Outcome × Machine :=
  runUntil (fun _ => false) limit ⟨!m.isDone, false⟩ m

/-- At most so many steps, up to a breakpoint. -/
def runToBreakpoint (m : Machine) (limit : Nat) : Except Failure Outcome × Machine :=
  runUntil (·.breakpoint) limit ⟨!m.isDone, false⟩ m

/-- The value of an expression in the running frame. -/
def evalTop (m : Machine) (e : Expr) : Except Fault Value :=
  match m.state.stack with
  | [] => .error .ended
  | f :: _ => eval m.state.heap f e

end Machine

end Semlift.Run
