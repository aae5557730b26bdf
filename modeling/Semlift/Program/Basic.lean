import Semlift.Lang.Stmt

/-!
Programs: class declarations and a main block. A class may extend another; a class or a method may
be abstract; classes and fields may say how they are lifted into the graph.
-/

namespace Semlift.Program

open Semlift.Lang

structure ParamDecl where
  name : String
  type : String
  deriving DecidableEq, Repr

/-- `models` names a predicate under which the value is lifted as well, if it is not empty. -/
structure FieldDecl where
  name : String
  type : String
  models : String
  deriving DecidableEq, Repr

structure MethodDecl where
  name : String
  params : List ParamDecl
  returnType : String
  body : Option Stmt
  abstract : Bool
  deriving DecidableEq

/-- `models` is a template of predicates and objects that is lifted for every instance, if it is not
empty; in it `%field` stands for the value of a field. -/
structure ClassDecl where
  name : String
  superclass : Option String
  fields : List FieldDecl
  methods : List MethodDecl
  models : String
  abstract : Bool
  deriving DecidableEq

structure Source where
  classes : List ClassDecl
  main : Option Stmt
  deriving DecidableEq

/-- The class of the cells of answer lists. -/
def listClass : String := "List"
def contentField : String := "content"
def nextField : String := "next"

/-- The class of the object that owns the main block. -/
def entryClass : String := "Entry"

def isBuiltin (name : String) : Bool := name == listClass || name == entryClass

end Semlift.Program
