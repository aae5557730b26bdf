import Semlift.Rdf.Term

/-!
The names of lifted things. A class is named in the program namespace, its fields and methods by its
own name, an underscore and theirs; an object in the namespace of the run; the words of the language
in a namespace of their own.
-/

namespace Semlift.Lift

open Semlift.Rdf

structure Namespaces where
  program : String
  run : String
  language : String
  domain : String
  deriving DecidableEq, Repr

namespace Namespaces

def object (ns : Namespaces) (r : ObjectRef) : Term := .iri (ns.run ++ r.name)

def classIri (ns : Namespaces) (className : String) : Term := .iri (ns.program ++ className)

/-- A field is named by the class that declares it. -/
def field (ns : Namespaces) (className field : String) : Term :=
  .iri (ns.program ++ className ++ "_" ++ field)

def method (ns : Namespaces) (className method : String) : Term :=
  .iri (ns.program ++ className ++ "_" ++ method)

def parameter (ns : Namespaces) (className method parameter : String) : Term :=
  .iri (ns.program ++ className ++ "_" ++ method ++ "_" ++ parameter)

def word (ns : Namespaces) (word : String) : Term := .iri (ns.language ++ word)

/-- The term of a value; null has none. -/
def lift? (ns : Namespaces) : Value → Option Term
  | .null => none
  | .bool b => some (.boolean b)
  | .int n => some (.integer n)
  | .double x => some (.double x)
  | .str s => some (.string s)
  | .object r => some (ns.object r)

end Namespaces

end Semlift.Lift
