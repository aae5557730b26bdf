import Semlift.Search
import Semlift.Store.State

/-!
Garbage collection. The roots are the owner of the main block and what the frames hold: their
owners, their local variables and the objects written in their statements. An object that no chain
of fields leads to from a root is erased, with its simulation unit.
-/

namespace Semlift.Lang

/-- The objects written in an expression. -/
def Expr.refs : Expr → List ObjectRef
  | .lit v => v.object?.toList
  | .var _ | .own _ | .this => []
  | .field object _ => object.refs
  | .unary _ operand => operand.refs
  | .binary _ lhs rhs => lhs.refs ++ rhs.refs

def Loc.refs : Loc → List ObjectRef
  | .var _ | .own _ => []
  | .field object _ => object.refs

def Loc.targetRefs : Option Loc → List ObjectRef
  | none => []
  | some l => l.refs

/-- The objects written in a statement. -/
def Stmt.refs : Stmt → List ObjectRef
  | .skip _ | .breakpoint _ => []
  | .assign _ t v => t.refs ++ v.refs
  | .seq _ a b => a.refs ++ b.refs
  | .ifThen _ c b => c.refs ++ b.refs
  | .ifElse _ c b o => c.refs ++ b.refs ++ o.refs
  | .while _ c b => c.refs ++ b.refs
  | .create _ t _ as => t.refs ++ as.flatMap Expr.refs
  | .call _ t r _ as => Loc.targetRefs t ++ r.refs ++ as.flatMap Expr.refs
  | .ret _ v => (v.map Expr.refs).getD []
  | .print _ v => v.refs
  | .member _ t q => t.refs ++ q.refs
  | .access _ t q ps => t.refs ++ q.refs ++ ps.flatMap Expr.refs
  | .store _ t => Loc.targetRefs t

end Semlift.Lang

namespace Semlift.Store

def Frame.roots (f : Frame) : List ObjectRef :=
  f.owner :: f.locals.refs ++ (f.active.map Lang.Stmt.refs).getD []

namespace State

def roots (s : State) : List ObjectRef := s.root.toList ++ s.stack.flatMap Frame.roots

/-- The serial numbers of the roots and of all that their fields lead to. -/
def marked (s : State) : List Nat := search s.heap.edges [] (s.roots.map (·.serial))

/-- The objects that are not marked. -/
def garbage (s : State) : List ObjectRef :=
  let keep := s.marked
  (s.heap.objects.map (·.ref)).filter fun r => !keep.contains r.serial

/-- Erases the garbage and says how many objects that were. -/
def collect (s : State) : Nat × State :=
  let gone := s.garbage
  (gone.length, { s with
    heap := gone.foldl Heap.erase s.heap
    simulation := gone.foldl Simulation.erase s.simulation })

end State

end Semlift.Store
