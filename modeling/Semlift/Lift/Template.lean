import Semlift.Program.Placeholder
import Semlift.Rdf.Turtle.Reader

/-!
Templates of classes: predicates and objects about an instance, in which `%field` stands for the
value of a field. A template is read once, with names of its own for the instance and the fields,
and filled in for each instance.
-/

namespace Semlift.Lift

open Semlift.Rdf

/-- Stands for the instance in a template. -/
def selfIri : String := "urn:smol:self"

/-- Begins the names that stand for fields in a template. -/
def fieldMark : String := "urn:smol:field:"

structure Template where
  triples : List Triple
  deriving DecidableEq, Repr

namespace Template

def read (prefixes : Prefixes) (text : String) : Except Turtle.SyntaxError Template :=
  let filled := Program.fillPlaceholders (fun name => "<" ++ fieldMark ++ name ++ ">") text
  ((Turtle.Reader.new prefixes "").readAbout (.iri selfIri) filled).1.map fun g => ⟨g.triples⟩

/-- The field that an IRI of a template stands for. -/
def fieldName? (iri : String) : Option String :=
  (Text.afterPrefix? fieldMark.toList iri.toList).map String.ofList

/-- A term of a template, filled in. A field without a value leaves nothing. -/
def fillTerm (self : Term) (value : String → Option Term) (blankPrefix : String) :
    Term → Option Term
  | .blank label => some (.blank (blankPrefix ++ label))
  | .literal lexical datatype language => some (.literal lexical datatype language)
  | .iri name =>
    if name = selfIri then some self
    else
      match fieldName? name with
      | some field => value field
      | none => some (.iri name)

/-- A triple of a template, filled in. There is none when a term is missing, the subject is a
literal or the predicate is no IRI. -/
def fillTriple (self : Term) (value : String → Option Term) (blankPrefix : String) (t : Triple) :
    Option Triple := do
  let s ← fillTerm self value blankPrefix t.subject
  let p ← fillTerm self value blankPrefix t.predicate
  let o ← fillTerm self value blankPrefix t.object
  if s.isLiteral || !p.isIri then none else some ⟨s, p, o⟩

/-- The triples of one instance. Its blank nodes get a prefix that no other instance has. -/
def instantiate (t : Template) (self : Term) (value : String → Option Term) (blankPrefix : String) :
    List Triple :=
  t.triples.filterMap (fillTriple self value blankPrefix)

end Template

end Semlift.Lift
