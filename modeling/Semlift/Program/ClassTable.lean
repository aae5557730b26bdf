import Semlift.Program.Basic
import Semlift.Text.Names

/-!
The classes of a program with their fields, inherited ones first, and their methods. A method is
looked up in a class and then in the classes above it.
-/

namespace Semlift.Program

open Semlift.Lang

structure FieldInfo where
  name : String
  type : String
  declaring : String
  deriving DecidableEq, Repr

structure MethodInfo where
  name : String
  params : List ParamDecl
  returnType : String
  body : Option Stmt
  abstract : Bool
  declaring : String
  deriving DecidableEq

structure ClassInfo where
  name : String
  superclass : Option String
  abstract : Bool
  /-- All fields, those of the superclass first. -/
  fields : List FieldInfo
  /-- The methods that the class declares itself. -/
  methods : List MethodInfo
  deriving DecidableEq

structure ClassTable where
  /-- In order of declaration, the built-in ones last. -/
  classes : List ClassInfo
  /-- Templates of classes under their names, and predicates of fields under the names of the class
  and the field with a point between; of two with one key the later counts. -/
  models : List (String × String)
  main : Option Stmt

namespace ClassTable

def names (t : ClassTable) : List String := t.classes.map (·.name)

def find? (t : ClassTable) (name : String) : Option ClassInfo :=
  t.classes.find? (·.name == name)

def has (t : ClassTable) (name : String) : Bool := (t.find? name).isSome

def isAbstract (t : ClassTable) (name : String) : Bool :=
  ((t.find? name).map (·.abstract)).getD false

/-- A program without classes or without a main block. -/
def isEmpty (t : ClassTable) : Bool := t.classes.isEmpty || t.main.isNone

def fields (t : ClassTable) (name : String) : List FieldInfo :=
  ((t.find? name).map (·.fields)).getD []

def field? (t : ClassTable) (className field : String) : Option FieldInfo :=
  (t.fields className).find? (·.name == field)

def methods (t : ClassTable) (name : String) : List MethodInfo :=
  ((t.find? name).map (·.methods)).getD []

def superclass? (t : ClassTable) (name : String) : Option String :=
  (t.find? name).bind (·.superclass)

/-- A class and so many classes above it. -/
def lineageFrom (t : ClassTable) : (above : Nat) → (name : String) → List String
  | 0, name => [name]
  | n + 1, name =>
    match t.superclass? name with
    | none => [name]
    | some s => name :: lineageFrom t n s

/-- A class and all classes above it, the nearest first. -/
def lineage (t : ClassTable) (name : String) : List String := t.lineageFrom t.classes.length name

def isSubclass (t : ClassTable) (sub super : String) : Bool := (t.lineage sub).contains super

/-- The classes that extend a class directly, sorted. -/
def subclasses (t : ClassTable) (name : String) : List String :=
  Text.sortNames ((t.classes.filter (·.superclass == some name)).map (·.name))

/-- The method that an object of a class runs. -/
def lookup? (t : ClassTable) (className method : String) : Option MethodInfo :=
  (t.lineage className).findSome? fun c => (t.methods c).find? (·.name == method)

/-- The text under a key, empty without one. -/
def modelsOf (t : ClassTable) (key : String) : String :=
  ((t.models.reverse.find? (·.1 == key)).map (·.2)).getD ""

def classModels (t : ClassTable) (name : String) : String := t.modelsOf name

def fieldModels (t : ClassTable) (className field : String) : String :=
  t.modelsOf (className ++ "." ++ field)

def fieldLine (f : FieldInfo) : String :=
  "  field " ++ f.name ++ " : " ++ f.type ++ " (from " ++ f.declaring ++ ")\n"

def methodLine (m : MethodInfo) : String :=
  "  method " ++ m.name ++ "(" ++ Text.join ", " (m.params.map fun p => p.type ++ " " ++ p.name) ++
    ") : " ++ m.returnType ++ (if m.abstract then " abstract" else "") ++ "\n"

def classText (t : ClassTable) (c : ClassInfo) : String :=
  (if c.abstract then "abstract class " else "class ") ++ c.name ++
    (c.superclass.map (" extends " ++ ·)).getD "" ++ "\n" ++
    String.join (c.fields.map fieldLine) ++ String.join (c.methods.map methodLine) ++
    (if (t.classModels c.name).isEmpty then ""
      else "  models \"" ++ t.classModels c.name ++ "\"\n")

/-- A listing of all classes. -/
def text (t : ClassTable) : String := String.join (t.classes.map t.classText)

end ClassTable

end Semlift.Program
