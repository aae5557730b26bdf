import Semlift.Lang.Stmt
import Semlift.Lower.Classify

/-!
What can go wrong when a statement is executed.
-/

namespace Semlift.Run

open Semlift.Lang

inductive Fault where
  | unknownVariable (name : String)
  /-- The first operand of an operator does not fit it. -/
  | badOperand (op : String) (v : Value)
  | badOperands (op : String) (l r : Value)
  | divisionByZero
  | nullRead (field : String)
  | badRead (field : String) (v : Value)
  | unknownField (field : String) (r : ObjectRef)
  | dangling (r : ObjectRef)
  | nullWrite (field : String)
  | badWrite (field : String) (v : Value)
  | undeclaredField (field className : String)
  | badCondition (v : Value)
  | badLoopCondition (v : Value)
  | unknownClass (className : String)
  | abstractClass (className : String)
  | creationArity (className : String) (expected given : Nat)
  | constructorParameters (className : String)
  | nullCall (method : String)
  | badCall (method : String) (v : Value)
  | noMethod (className method : String)
  | abstractMethod (className method : String)
  | callArity (className method : String) (expected given : Nat)
  /-- The text of a question is no string. -/
  | badQuestion (what : String) (v : Value)
  | nullParameter (number : Nat)
  | unlowered (m : Lower.Misfit)
  /-- A question was not answered. -/
  | unanswered (d : Diagnostic)
  /-- Nothing runs any more. -/
  | ended
  deriving DecidableEq

namespace Fault

def mismatch (detail : String) : String := "type mismatch: " ++ detail

def arity (what : String) (expected given : Nat) : String :=
  "arity mismatch: " ++ what ++ " expects " ++ Number.natText expected ++ " arguments, got " ++
    Number.natText given

def inapplicable (op operands : String) : String :=
  mismatch ("'" ++ op ++ "' cannot be applied to " ++ operands)

def message : Fault → String
  | unknownVariable name => "unknown variable '" ++ name ++ "'"
  | badOperand op v => inapplicable op (v.typeName ++ " (" ++ v.text ++ ")")
  | badOperands op l r => inapplicable op (l.typeName ++ " and " ++ r.typeName)
  | divisionByZero => "division by zero"
  | nullRead f => "null dereference reading field '" ++ f ++ "'"
  | badRead f v => mismatch ("field '" ++ f ++ "' read from " ++ v.typeName)
  | unknownField f r => "unknown field '" ++ f ++ "' of " ++ r.name ++ " (" ++ r.className ++ ")"
  | dangling r => "dangling reference " ++ r.name
  | nullWrite f => "null dereference writing field '" ++ f ++ "'"
  | badWrite f v => mismatch ("field '" ++ f ++ "' written on " ++ v.typeName)
  | undeclaredField f c => "unknown field '" ++ f ++ "' of class " ++ c
  | badCondition v => "condition must be a Boolean, got " ++ v.typeName
  | badLoopCondition v => "loop condition must be a Boolean, got " ++ v.typeName
  | unknownClass c => "unknown class " ++ c
  | abstractClass c => "cannot instantiate abstract class " ++ c
  | creationArity c expected given => arity ("new " ++ c) expected given
  | constructorParameters c => "arity mismatch: " ++ c ++ ".init must not take parameters"
  | nullCall m => "call of " ++ m ++ " on null"
  | badCall m v => mismatch ("call of " ++ m ++ " on " ++ v.typeName)
  | noMethod c m => "class " ++ c ++ " has no method " ++ m
  | abstractMethod c m => "method " ++ c ++ "." ++ m ++ " is abstract"
  | callArity c m expected given => arity (c ++ "." ++ m) expected given
  | badQuestion what v => what ++ " must be a string, got " ++ v.typeName
  | nullParameter n => "access parameter %" ++ Number.natText n ++ " is null"
  | unlowered m => m.message
  | unanswered d => d.message
  | ended => "no frame to evaluate in: execution has ended"

/-- Every fault is a runtime error; a question that was not answered keeps its own diagnostic. -/
def diagnostic : Fault → Diagnostic
  | unanswered d => d
  | f => .runtime f.message

end Fault

end Semlift.Run
