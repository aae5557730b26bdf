import Semlift.Rdf.Graph
import Semlift.Rdf.Prefixes

/-!
Two texts of a list of triples: one line for each triple with full names, and the grouped form with
prefixes, where a subject is written once, and once each of its predicates.
-/

namespace Semlift.Rdf

def ntriplesText (ts : List Triple) : String := String.join (ts.map (·.ntriples ++ "\n"))

def Term.turtle (prefixes : Prefixes) : Term → String
  | .iri name => prefixes.compact name
  | .blank label => "_:" ++ label
  | .literal lexical datatype language =>
    if !language.isEmpty then Text.quote lexical ++ "@" ++ language
    else if datatype = Vocabulary.xsdString then Text.quote lexical
    else Text.quote lexical ++ "^^" ++ prefixes.compact datatype

/-- The predicate of a type statement has a short form. -/
def predicateText (prefixes : Prefixes) (t : Term) : String :=
  if t.content = Vocabulary.rdfType then "a" else t.turtle prefixes

def predicateGroup (prefixes : Prefixes) (group : List Triple) (predicate : Term) : String :=
  predicateText prefixes predicate ++ " " ++
    Text.join ", " ((group.filter (·.predicate == predicate)).map (·.object.turtle prefixes))

def subjectGroup (prefixes : Prefixes) (ts : List Triple) (subject : Term) : String :=
  let group := ts.filter (·.subject == subject)
  subject.turtle prefixes ++ " " ++
    Text.join " ;\n    "
      ((group.map (·.predicate)).eraseDups.map (predicateGroup prefixes group)) ++ " .\n"

def turtleText (ts : List Triple) (prefixes : Prefixes) : String :=
  prefixes.turtleHeader ++ "\n" ++
    String.join ((ts.map (·.subject)).eraseDups.map (subjectGroup prefixes ts))

end Semlift.Rdf
