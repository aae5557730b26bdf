import Semlift.Ontology.ClassExpr
import Semlift.Search

/-!
What a graph entails by its schema: members of a class are members of the classes above it, triples
of a property hold for the properties above it, and domains and ranges give types. The closure holds
the triples of the graph in front and the entailed ones in the order in which they are found.
-/

namespace Semlift.Ontology

open Semlift.Rdf

def subClassOf : Term := .iri Vocabulary.rdfsSubClassOf
def subPropertyOf : Term := .iri Vocabulary.rdfsSubPropertyOf
def domain : Term := .iri Vocabulary.rdfsDomain
def range : Term := .iri Vocabulary.rdfsRange

/-- A step from one term to another. -/
abbrev Edge := Term × Term

/-- The steps that a predicate makes in a graph. -/
def edgesOf (g : Graph) (predicate : Term) : List Edge :=
  (g.matching ⟨none, some predicate, none⟩).map fun t => (t.subject, t.object)

/-- The schema that a graph declares. -/
structure Schema where
  classes : List Edge
  properties : List Edge
  domains : List Edge
  ranges : List Edge

def Schema.of (g : Graph) : Schema :=
  ⟨edgesOf g subClassOf, edgesOf g subPropertyOf, edgesOf g domain, edgesOf g range⟩

/-- What one triple entails under a schema. -/
def Schema.consequences (s : Schema) (t : Triple) : List Triple :=
  (if t.predicate = rdfType then
      (reach s.classes t.object).map fun c => ⟨t.subject, rdfType, c⟩
    else if t.predicate = subClassOf then
      (reach s.classes t.object).map fun c => ⟨t.subject, subClassOf, c⟩
    else if t.predicate = subPropertyOf then
      (reach s.properties t.object).map fun p => ⟨t.subject, subPropertyOf, p⟩
    else []) ++
  ((reach s.properties t.predicate).map fun p => ⟨t.subject, p, t.object⟩) ++
  ((targets s.domains t.predicate).map fun c => ⟨t.subject, rdfType, c⟩) ++
  (if t.object.isLiteral then []
    else (targets s.ranges t.predicate).map fun c => ⟨t.object, rdfType, c⟩)

/-- Adds the consequences of the pending triples, and of those that are new with them. -/
def saturate (s : Schema) : (fuel : Nat) → (g : Graph) → (pending : List Triple) → Graph
  | 0, g, _ => g
  | _, g, [] => g
  | n + 1, g, t :: more =>
    let h := g.addAll (s.consequences t)
    saturate s n h (more ++ h.triples.drop g.size)

/-- How many triples the terms of a graph and the type predicate can form. -/
def bound (g : Graph) : Nat :=
  let terms := 3 * g.size + 1
  terms * terms * terms

/-- Saturates under the declared schema until the schema itself does not grow any more. -/
def closeWithin (limit : Nat) : (rounds : Nat) → Graph → Graph
  | 0, g => g
  | n + 1, g =>
    let h := saturate (.of g) limit g g.triples
    if h.size = g.size then g else closeWithin limit n h

def closure (g : Graph) : Graph := closeWithin (bound g) (bound g) g

def nothing : Term := .iri Vocabulary.owlNothing
def disjointWith : Term := .iri Vocabulary.owlDisjointWith

/-- Whether some member is in two classes declared disjoint. -/
def clashes (g : Graph) (declared : Triple) : Bool :=
  (g.subjects rdfType declared.subject).any fun t =>
    (g.subjects rdfType declared.object).contains t

/-- Nothing is in the empty class, and no term in two classes declared disjoint. -/
def isConsistent (g : Graph) : Bool :=
  let h := closure g
  (h.subjects rdfType nothing).isEmpty &&
    (h.matching ⟨none, some disjointWith, none⟩).all fun d => !clashes h d

/-- The members of a class among all that a graph entails. -/
def instances (g : Graph) (e : ClassExpr) : List Term := e.members (closure g)

end Semlift.Ontology
