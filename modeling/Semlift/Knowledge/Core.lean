import Semlift.Rdf.Turtle.Reader

/-!
The vocabulary of the language itself: its words for classes, fields, methods, parameters, objects
and simulation samples, with their domains, ranges and disjointness.
-/

namespace Semlift.Knowledge

open Semlift.Rdf

def coreText : String := "
smol:Class a owl:Class ; rdfs:label \"class\" .
smol:Field a owl:Class ; rdfs:label \"field\" .
smol:Method a owl:Class ; rdfs:label \"method\" .
smol:Parameter a owl:Class ; rdfs:label \"parameter\" .
smol:Object a owl:Class ; rdfs:label \"runtime object\" .
smol:Sample a owl:Class ; rdfs:label \"simulation sample\" .
smol:Port a owl:Class ; rdfs:label \"simulation port\" .

smol:Class owl:disjointWith smol:Field , smol:Method , smol:Parameter .
smol:Field owl:disjointWith smol:Method , smol:Parameter .
smol:Method owl:disjointWith smol:Parameter .

smol:hasName a owl:DatatypeProperty ; rdfs:range xsd:string .
smol:hasField a owl:ObjectProperty ;
    rdfs:domain smol:Class ; rdfs:range smol:Field .
smol:hasMethod a owl:ObjectProperty ;
    rdfs:domain smol:Class ; rdfs:range smol:Method .
smol:hasParameter a owl:ObjectProperty ;
    rdfs:domain smol:Method ; rdfs:range smol:Parameter .

smol:roleName a owl:DatatypeProperty ; rdfs:range xsd:string .
smol:hasSample a owl:ObjectProperty ;
    rdfs:domain smol:Object ; rdfs:range smol:Sample .
smol:ofPort a owl:ObjectProperty ;
    rdfs:domain smol:Sample ; rdfs:range smol:Port .
smol:withName a owl:DatatypeProperty ; rdfs:domain smol:Port .
smol:withValue a owl:DatatypeProperty ; rdfs:domain smol:Sample .
smol:atTime a owl:DatatypeProperty ;
    rdfs:domain smol:Sample ; rdfs:range xsd:double .
"

/-- The core vocabulary, read with the prefixes of the program. -/
def core (prefixes : Prefixes) : Except Turtle.SyntaxError Graph :=
  ((Turtle.Reader.new prefixes "core_").read coreText).1

end Semlift.Knowledge
