import Semlift.Lift.Lifter
import Semlift.Rdf.Graph
import Semlift.Store.State

/-!
The lifted triples of a program state and of a class table. A guard leaves out what cannot answer a
pattern before it is lifted, by what can be said of the pattern: the object that a subject belongs
to, the classes whose declaration has a subject, and the predicates that the instances of a class
can have.
-/

namespace Semlift.Lift

open Semlift.Rdf Semlift.Store

/-- The serial number in `obj`, digits, and nothing or an underscore and more. -/
def serial? (cs : List Char) : Option Nat := do
  Text.wordValue? ((← Text.afterPrefix? "obj".toList cs).takeWhile (· != '_'))

/-- The name in the set of predicates of a class that stands for every predicate. -/
def anyPredicate : String := "*"

namespace Lifter

/-- The serial number of the only object that can give triples of a subject. -/
def owner? (l : Lifter) : Term → Option Nat
  | .blank label => serial? label.toList
  | .iri name => do
    let loc ← Text.afterPrefix? l.names.run.toList name.toList
    if loc.contains '_' then none else serial? loc
  | .literal .. => none

/-- The classes whose declaration has triples of a subject. -/
def classesOf (l : Lifter) (subject : Term) : List String :=
  l.table.names.filter fun c => (l.classTriples c).any (·.subject == subject)

/-- The predicates of a template; one that stands for a field can be any. -/
def templatePredicates (t : Template) : List String :=
  t.triples.map fun t =>
    if (Template.fieldName? t.predicate.content).isSome then anyPredicate else t.predicate.content

/-- The predicates that the instances of a class can have. -/
def predicatesOf (l : Lifter) (className : String) : List String :=
  Vocabulary.rdfType :: (l.table.fields className).flatMap (fun f =>
      (l.fieldIri f).content :: (l.predicate? f).toList.map Term.content) ++
    ((l.template? className).map templatePredicates).getD []

/-- Whether an instance of a class can have a predicate. -/
def mayHave (l : Lifter) (className : String) (predicate : Term) : Bool :=
  !l.table.has className ||
    (l.predicatesOf className).contains anyPredicate ||
    (l.predicatesOf className).contains predicate.content

/-- The objects and simulation units that a guard lets through for a pattern. -/
def candidates (l : Lifter) (s : State) (guarded : Bool) (p : TriplePattern) :
    List Object × List SimUnit :=
  if !guarded then (s.heap.objects, s.simulation)
  else
    match p.subject with
    | some subject =>
      match l.owner? subject with
      | none => ([], [])
      | some n => ((s.heap.find? n).toList, (s.simulation.find? n).toList)
    | none =>
      match p.predicate with
      | some predicate =>
        (s.heap.objects.filter fun o => l.mayHave o.ref.className predicate, s.simulation)
      | none => (s.heap.objects, s.simulation)

/-- The triples of the objects in order of their making, then those of the simulation units. -/
def stateSource (l : Lifter) (s : State) (guarded : Bool) : Source := fun p =>
  let (objects, units) := l.candidates s guarded p
  (objects.flatMap l.objectTriples ++ units.flatMap l.unitTriples).filter p.covers

/-- The triples of the classes in the order of the class table. -/
def tableSource (l : Lifter) (guarded : Bool) : Source := fun p =>
  let classes := match guarded, p.subject with
    | true, some subject => l.classesOf subject
    | _, _ => l.table.names
  (classes.flatMap l.classTriples).filter p.covers

end Lifter

end Semlift.Lift
