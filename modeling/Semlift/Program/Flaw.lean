import Semlift.Diagnostic

/-!
What can be wrong with a program before it runs.
-/

namespace Semlift.Program

/-- A body of the program. -/
inductive Place where
  | method (className method : String)
  | main
  deriving DecidableEq, Repr

def Place.text : Place → String
  | .method c m => "method '" ++ c ++ "." ++ m ++ "'"
  | .main => "main block"

inductive Flaw where
  | noMain
  | redeclaresBuiltin (className : String)
  | duplicateClass (className : String)
  | duplicateField (field className : String)
  | duplicateMethod (method className : String)
  | unknownSuperclass (className superclass : String)
  | cycle (className : String)
  | shadowedField (field className declaring : String)
  | notPredicate (className field models : String)
  | abstractInConcrete (method className : String)
  | noBody (className method : String)
  | unknownPlaceholder (className field : String)
  | notImplemented (className method : String)
  | freeVariable (name : String) (place : Place)
  | unknownCreated (place : Place) (className : String)
  | abstractCreated (place : Place) (className : String)
  deriving DecidableEq, Repr

def quoted (s : String) : String := "'" ++ s ++ "'"

def Flaw.message : Flaw → String
  | .noMain => "program has no main block"
  | .redeclaresBuiltin c => "class " ++ quoted c ++ " redeclares a built-in class"
  | .duplicateClass c => "duplicate class " ++ quoted c
  | .duplicateField f c => "duplicate field " ++ quoted f ++ " in class " ++ quoted c
  | .duplicateMethod m c => "duplicate method " ++ quoted m ++ " in class " ++ quoted c
  | .unknownSuperclass c s => "class " ++ quoted c ++ " extends unknown class " ++ quoted s
  | .cycle c => "inheritance cycle through class " ++ quoted c
  | .shadowedField f c d =>
    "field " ++ quoted f ++ " in class " ++ quoted c ++ " shadows the field inherited from " ++
      quoted d
  | .notPredicate c f models =>
    "field " ++ quoted (c ++ "." ++ f) ++ " models " ++ quoted models ++
      ", which is not a predicate"
  | .abstractInConcrete m c =>
    "abstract method " ++ quoted m ++ " in non-abstract class " ++ quoted c
  | .noBody c m => "method " ++ quoted (c ++ "." ++ m) ++ " has no body"
  | .unknownPlaceholder c f =>
    "models template of class " ++ quoted c ++ " refers to unknown field " ++ quoted ("%" ++ f)
  | .notImplemented c m =>
    "class " ++ quoted c ++ " does not implement abstract method " ++ quoted m
  | .freeVariable name place => "free variable " ++ quoted name ++ " in " ++ place.text
  | .unknownCreated place c => place.text ++ " instantiates unknown class " ++ quoted c
  | .abstractCreated place c => place.text ++ " instantiates abstract class " ++ quoted c

/-- All flaws of a program as a report. -/
def report (flaws : List Flaw) : Report := flaws.map fun f => .error f.message

/-- Why a program has no class table: its flaws, or no order puts superclasses first. -/
inductive BuildError where
  | flawed (flaws : List Flaw)
  | unordered
  deriving DecidableEq, Repr

def BuildError.failure : BuildError → Failure
  | .flawed _ => .reported (.error "program has structural errors")
  | .unordered => .broken "StaticTable::Build" "superclass ordering did not converge"

end Semlift.Program
