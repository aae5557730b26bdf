import Semlift.Program.Basic
import Semlift.Text.Names

/-!
Which local variables a body reads and writes, and which classes it makes objects of.
-/

namespace Semlift.Program

open Semlift.Lang

structure Usage where
  reads : List String
  writes : List String
  creates : List String

namespace Usage

def none : Usage := ⟨[], [], []⟩

instance : Append Usage :=
  ⟨fun a b => ⟨a.reads ++ b.reads, a.writes ++ b.writes, a.creates ++ b.creates⟩⟩

def ofNames (names : List String) : Usage := ⟨names, [], []⟩

end Usage

/-- The local variables of an expression. -/
def Expr.reads : Expr → List String
  | .lit _ | .own _ | .this => []
  | .var name => [name]
  | .field object _ => Expr.reads object
  | .unary _ operand => Expr.reads operand
  | .binary _ lhs rhs => Expr.reads lhs ++ Expr.reads rhs

def Loc.usage : Loc → Usage
  | .var name => ⟨[], [name], []⟩
  | .own _ => .none
  | .field object _ => .ofNames (Expr.reads object)

def targetUsage : Option Loc → Usage
  | Option.none => .none
  | some l => Loc.usage l

def Stmt.usage : Stmt → Usage
  | .skip _ | .breakpoint _ => .none
  | .assign _ target value => Loc.usage target ++ .ofNames (Expr.reads value)
  | .seq _ first second => Stmt.usage first ++ Stmt.usage second
  | .ifThen _ condition body => .ofNames (Expr.reads condition) ++ Stmt.usage body
  | .ifElse _ condition body other =>
    .ofNames (Expr.reads condition) ++ Stmt.usage body ++ Stmt.usage other
  | .while _ condition body => .ofNames (Expr.reads condition) ++ Stmt.usage body
  | .create _ target className args =>
    Loc.usage target ++ ⟨args.flatMap Expr.reads, [], [className]⟩
  | .call _ target receiver _ args =>
    targetUsage target ++ .ofNames (Expr.reads receiver ++ args.flatMap Expr.reads)
  | .ret _ value => .ofNames ((value.map Expr.reads).getD [])
  | .print _ value => .ofNames (Expr.reads value)
  | .member _ target query => Loc.usage target ++ .ofNames (Expr.reads query)
  | .access _ target query params =>
    Loc.usage target ++ .ofNames (Expr.reads query ++ params.flatMap Expr.reads)
  | .store _ target => targetUsage target

/-- The variables that a body reads, but neither writes nor has as parameters. -/
def freeVariables (body : Stmt) (params : List ParamDecl) : List String :=
  let usage := Stmt.usage body
  (Text.sortNames usage.reads).filter fun name =>
    !usage.writes.contains name && !(params.map (·.name)).contains name

end Semlift.Program
