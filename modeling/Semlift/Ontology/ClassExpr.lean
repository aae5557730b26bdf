import Semlift.Rdf.Graph

/-!
Class expressions, their text with full names, and their members by the explicit facts of a graph.
-/

namespace Semlift.Ontology

open Semlift.Rdf

inductive ClassExpr where
  | named (iri : String)
  | inter (first : ClassExpr) (more : List ClassExpr)
  | union (first : ClassExpr) (more : List ClassExpr)
  | complement (operand : ClassExpr)
  /-- The subjects of a property with an object in the filler. -/
  | some (property : String) (filler : ClassExpr)
  | value (property : String) (individual : Term)
  | oneOf (individuals : List Term)

namespace ClassExpr

/-- A class expression is gone through operand by operand. -/
@[elab_as_elim]
theorem induction {P : ClassExpr → Prop} (named : ∀ iri, P (.named iri))
    (inter : ∀ first more, P first → (∀ e ∈ more, P e) → P (.inter first more))
    (union : ∀ first more, P first → (∀ e ∈ more, P e) → P (.union first more))
    (complement : ∀ e, P e → P (.complement e))
    (some : ∀ property filler, P filler → P (.some property filler))
    (value : ∀ property individual, P (.value property individual))
    (oneOf : ∀ individuals, P (.oneOf individuals)) (e : ClassExpr) : P e :=
  @ClassExpr.rec P (fun es => ∀ e ∈ es, P e) named inter union complement some value oneOf
    (by simp) (fun _ _ he hes => by simpa using ⟨he, hes⟩) e

mutual

def text : ClassExpr → String
  | .named iri => "<" ++ iri ++ ">"
  | .inter first more => "(" ++ first.text ++ ")" ++ textMore " and " more
  | .union first more => "(" ++ first.text ++ ")" ++ textMore " or " more
  | .complement e => "not (" ++ e.text ++ ")"
  | .some property filler => "<" ++ property ++ "> some (" ++ filler.text ++ ")"
  | .value property individual => "<" ++ property ++ "> value " ++ individual.ntriples
  | .oneOf individuals => "\x7b" ++ Text.join ", " (individuals.map Term.ntriples) ++ "\x7d"

/-- The other operands, each after its connective. -/
def textMore (sep : String) : List ClassExpr → String
  | [] => ""
  | e :: more => sep ++ "(" ++ e.text ++ ")" ++ textMore sep more

end

/-- The class of everything. -/
def isThing : ClassExpr → Bool
  | .named iri => iri == Vocabulary.owlThing
  | _ => false

end ClassExpr

/-- Classes whose members are no individuals. -/
def isMetaClass (iri : String) : Bool :=
  iri ∈ [Vocabulary.owlClass, Vocabulary.rdfsClass, Vocabulary.owlObjectProperty,
    Vocabulary.owlDatatypeProperty, Vocabulary.rdfProperty,
    Vocabulary.owl ++ "AnnotationProperty", Vocabulary.owl ++ "Ontology"]

def rdfType : Term := .iri Vocabulary.rdfType

def typesIndividual (t : Triple) : Bool :=
  t.predicate == rdfType &&
    match t.object with
    | .iri name => !isMetaClass name
    | _ => false

/-- The subjects that are given a class that is no meta class. -/
def individuals (g : Graph) : List Term :=
  ((g.triples.filter typesIndividual).map (·.subject)).eraseDups

mutual

/-- The members of a class, each where it comes first. -/
def ClassExpr.members (g : Graph) : ClassExpr → List Term
  | .named iri =>
    if iri = Vocabulary.owlThing then individuals g
    else (g.subjects rdfType (.iri iri)).eraseDups
  | .inter first more =>
    let others := ClassExpr.membersOfAll g more
    (first.members g).filter fun t => others.all (·.contains t)
  | .union first more => (first.members g ++ (ClassExpr.membersOfAll g more).flatten).eraseDups
  | .complement e =>
    let excluded := e.members g
    (individuals g).filter fun t => !excluded.contains t
  | .some property filler =>
    let fillers := filler.members g
    let wanted := fun (t : Triple) => filler.isThing || fillers.contains t.object
    (((g.matching ⟨none, .some (.iri property), none⟩).filter wanted).map (·.subject)).eraseDups
  | .value property individual => (g.subjects (.iri property) individual).eraseDups
  | .oneOf individuals => individuals.eraseDups

/-- The members of each class of a list. -/
def ClassExpr.membersOfAll (g : Graph) : List ClassExpr → List (List Term)
  | [] => []
  | e :: more => e.members g :: ClassExpr.membersOfAll g more

end

end Semlift.Ontology
