import Semlift.Knowledge.Base
import Semlift.Lower.Classify
import Semlift.Run.Eval
import Semlift.Run.Parameter

/-!
One statement: what it does to its frame and the state, what it prints, and how its frame goes on.
Of a sequence only the first primitive statement is executed; the rest stays behind it.
-/

namespace Semlift.Run

open Semlift.Lang Semlift.Store Semlift.Program

/-- How a frame goes on after a statement. -/
inductive Action where
  /-- With what is left of it, if anything. -/
  | proceed (residual : Option Stmt) (breakpoint : Bool)
  /-- A callee runs first. -/
  | spawn (callee : Frame) (residual : Option Stmt)
  /-- It ends with a value. -/
  | ret (v : Value)
  deriving DecidableEq

structure Effect where
  frame : Frame
  state : State
  printed : String
  action : Action
  deriving DecidableEq

/-- Why a statement was not executed. A fault leaves a state behind; any other failure loses the
frame that was running. -/
inductive Halt where
  | fault (f : Fault) (left : State)
  | failure (e : Failure)
  deriving DecidableEq

/-- What statements are executed against. -/
structure Context where
  table : ClassTable
  base : Knowledge.Base
  view : Knowledge.View

/-- A fault that leaves the state as it is. -/
def faultAt (s : State) {α : Type} : Except Fault α → Except Halt α
  | .ok a => .ok a
  | .error f => .error (.fault f s)

def done (f : Frame) (s : State) (residual : Option Stmt) : Effect :=
  ⟨f, s, "", .proceed residual false⟩

def assign (c : Context) (f : Frame) (s : State) (target : Loc) (value : Expr) :
    Except Fault Effect := do
  let slot ← resolve c.table s.heap f target
  let v ← eval s.heap f value
  let (f, s) ← slot.write v f s
  return done f s none

/-- A condition, which must be a truth value. -/
def truth (bad : Value → Fault) : Value → Except Fault Bool
  | .bool b => .ok b
  | v => .error (bad v)

def branch (f : Frame) (s : State) (condition : Expr) (body : Stmt) (other : Option Stmt) :
    Except Fault Effect := do
  let holds ← truth .badCondition (← eval s.heap f condition)
  return done f s (if holds then some body else other)

def loop (f : Frame) (s : State) (whole : Stmt) (condition : Expr) (body : Stmt) :
    Except Fault Effect := do
  let holds ← truth .badLoopCondition (← eval s.heap f condition)
  return done f s (if holds then some (.seq (-1) body whole) else none)

/-- The method that runs on a new object before the program goes on. -/
def constructorName : String := "init"

/-- Whether an object of a class may be made from so many arguments. -/
def checkCreation (t : ClassTable) (className : String) (given : Nat) : Except Fault Unit :=
  let expected := (t.fields className).length
  if !t.has className then .error (.unknownClass className)
  else if t.isAbstract className then .error (.abstractClass className)
  else if given ≠ expected then .error (.creationArity className expected given)
  else
    match t.lookup? className constructorName with
    | some m => if m.params.isEmpty then .ok () else .error (.constructorParameters m.declaring)
    | none => .ok ()

/-- The body that runs on a new object of a class. -/
def constructorBody? (t : ClassTable) (className : String) : Option Stmt :=
  (t.lookup? className constructorName).bind (·.body)

/-- A place for a new object and the values of its fields. -/
def prepare (c : Context) (f : Frame) (s : State) (target : Loc) (className : String)
    (args : List Expr) : Except Fault (Slot × Fields) := do
  checkCreation c.table className args.length
  let slot ← resolve c.table s.heap f target
  let vs ← evalAll s.heap f args
  return (slot, .ofList (((c.table.fields className).map (·.name)).zip vs))

/-- Makes an object and writes it to its place; its constructor runs next. -/
def create (c : Context) (f : Frame) (s : State) (target : Loc) (className : String)
    (args : List Expr) : Except Halt Effect := do
  let (slot, fields) ← faultAt s (prepare c f s target className args)
  let (r, heap) := s.heap.allocate className fields
  let s := { s with heap := heap }
  let (f, s) ← faultAt s (slot.write (.object r) f s)
  match constructorBody? c.table className with
  | none => return done f s none
  | some body =>
    let (id, s) := s.takeFrameId
    return ⟨f, s, "", .spawn ⟨some body, [], r, id, false⟩ none⟩

def receiverOf (method : String) : Value → Except Fault ObjectRef
  | .null => .error (.nullCall method)
  | .object r => .ok r
  | v => .error (.badCall method v)

/-- The method of an object that takes so many arguments, with its body. -/
def callee (t : ClassTable) (r : ObjectRef) (method : String) (given : Nat) :
    Except Fault (MethodInfo × Stmt) :=
  match t.lookup? r.className method with
  | none => .error (.noMethod r.className method)
  | some m =>
    match m.abstract, m.body with
    | false, some body =>
      if m.params.length = given then .ok (m, body)
      else .error (.callArity m.declaring method m.params.length given)
    | _, _ => .error (.abstractMethod m.declaring method)

/-- The variables of a method that begins to run. -/
def bindParameters (params : List ParamDecl) (vs : List Value) : Fields :=
  (params.zip vs).foldl (fun fs (p, v) => fs.assign p.name v) []

def call (c : Context) (f : Frame) (s : State) (line : Int) (target : Option Loc) (receiver : Expr)
    (method : String) (args : List Expr) : Except Fault Effect := do
  let r ← receiverOf method (← eval s.heap f receiver)
  let (m, body) ← callee c.table r method args.length
  let vs ← evalAll s.heap f args
  let (id, s) := s.takeFrameId
  let callee : Frame := ⟨some body, bindParameters m.params vs, r, id, true⟩
  return ⟨f, s, "", .spawn callee (some (.store line target))⟩

def giveBack (f : Frame) (s : State) : Option Expr → Except Fault Effect
  | none => .ok ⟨f, s, "", .ret .null⟩
  | some e => do return ⟨f, s, "", .ret (← eval s.heap f e)⟩

def print (f : Frame) (s : State) (e : Expr) : Except Fault Effect := do
  return ⟨f, s, concatPart (← eval s.heap f e) ++ "\n", .proceed none false⟩

/-- Goes on with the assignment of a list that answers a question. -/
def assignAnswers (f : Frame) (s : State) (line : Int) (target : Loc) :
    Except Lower.Misfit (Value × Heap) → Except Fault Effect
  | .ok (v, heap) => .ok (done f { s with heap := heap } (some (.assign line target (.lit v))))
  | .error m => .error (.unlowered m)

def answered {α : Type} : Checked α → Except Fault α
  | .ok a => .ok a
  | .error d => .error (.unanswered d)

/-- The class expression of a statement that asks for members. -/
def memberText (c : Context) (f : Frame) (s : State) (target : Loc) (query : Expr) :
    Except Fault String := do
  let _ ← resolve c.table s.heap f target
  evalString s.heap f "member query" query

def member (c : Context) (f : Frame) (s : State) (line : Int) (target : Loc) (query : Expr) :
    Except Fault Effect := do
  let text ← memberText c f s target query
  let members ← answered (c.base.members s c.view text)
  assignAnswers f s line target (Lower.lowerTerms c.base.prefixes s.heap (members.map some))

/-- The text of a query with its parameters. -/
def accessText (c : Context) (f : Frame) (s : State) (target : Loc) (query : Expr)
    (params : List Expr) : Except Fault String := do
  let _ ← resolve c.table s.heap f target
  let text ← evalString s.heap f "access query" query
  let vs ← evalAll s.heap f params
  return substitute (← parameterTexts c.base.lifter.names c.base.prefixes vs) text

def access (c : Context) (f : Frame) (s : State) (line : Int) (target : Loc) (query : Expr)
    (params : List Expr) : Except Halt Effect := do
  let text ← faultAt s (accessText c f s target query params)
  match c.base.query s c.view text with
  | .ok t => faultAt s (assignAnswers f s line target (Lower.lowerTable c.base.prefixes s.heap t))
  | .error (.reported d) => throw (.fault (.unanswered d) s)
  | .error e => throw (.failure e)

def resumedEarly (f : Frame) : Failure :=
  .broken "Interpreter::ExecStatement"
    ("frame " ++ Number.natText f.id ++ " resumed before its callee returned")

/-- What is left of a sequence when its first part is left over or done. -/
def followedBy (rest : Stmt) : Option Stmt → Option Stmt
  | none => some rest
  | some s => some (.seq (-1) s rest)

def Action.followedBy (rest : Stmt) : Action → Action
  | .proceed residual breakpoint => .proceed (Run.followedBy rest residual) breakpoint
  | .spawn callee residual => .spawn callee (Run.followedBy rest residual)
  | .ret v => .ret v

/-- Executes a statement of a frame that was taken from the stack. -/
def exec (c : Context) (f : Frame) (s : State) : Stmt → Except Halt Effect
  | .skip _ => .ok (done f s none)
  | .assign _ target value => faultAt s (assign c f s target value)
  | .seq _ first rest => do
    let e ← exec c f s first
    return { e with action := e.action.followedBy rest }
  | .ifThen _ condition body => faultAt s (branch f s condition body none)
  | .ifElse _ condition body other => faultAt s (branch f s condition body (some other))
  | .while line condition body => faultAt s (loop f s (.while line condition body) condition body)
  | .create _ target className args => create c f s target className args
  | .call line target receiver method args =>
    faultAt s (call c f s line target receiver method args)
  | .ret _ value => faultAt s (giveBack f s value)
  | .print _ value => faultAt s (print f s value)
  | .breakpoint _ => .ok ⟨f, s, "", .proceed none true⟩
  | .member line target query => faultAt s (member c f s line target query)
  | .access line target query params => access c f s line target query params
  | .store _ _ => .error (.failure (resumedEarly f))

/-- The knowledge after a statement, which may have asked for members. -/
def knowledgeAfter (c : Context) (f : Frame) (s : State) : Stmt → Knowledge.Base
  | .seq _ first _ => knowledgeAfter c f s first
  | .member _ target query =>
    match memberText c f s target query with
    | .ok text => c.base.afterMembers s c.view text
    | .error _ => c.base
  | _ => c.base

end Semlift.Run
