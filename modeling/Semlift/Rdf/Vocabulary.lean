/-!
The names of the standard vocabularies that the readers, the lifted graph and the reasoners use.
-/

namespace Semlift.Rdf.Vocabulary

def rdf := "http://www.w3.org/1999/02/22-rdf-syntax-ns#"
def rdfs := "http://www.w3.org/2000/01/rdf-schema#"
def owl := "http://www.w3.org/2002/07/owl#"
def xsd := "http://www.w3.org/2001/XMLSchema#"

def rdfType := "http://www.w3.org/1999/02/22-rdf-syntax-ns#type"
def rdfFirst := "http://www.w3.org/1999/02/22-rdf-syntax-ns#first"
def rdfRest := "http://www.w3.org/1999/02/22-rdf-syntax-ns#rest"
def rdfNil := "http://www.w3.org/1999/02/22-rdf-syntax-ns#nil"
def rdfLangString := "http://www.w3.org/1999/02/22-rdf-syntax-ns#langString"
def rdfProperty := "http://www.w3.org/1999/02/22-rdf-syntax-ns#Property"

def rdfsSubClassOf := "http://www.w3.org/2000/01/rdf-schema#subClassOf"
def rdfsSubPropertyOf := "http://www.w3.org/2000/01/rdf-schema#subPropertyOf"
def rdfsDomain := "http://www.w3.org/2000/01/rdf-schema#domain"
def rdfsRange := "http://www.w3.org/2000/01/rdf-schema#range"
def rdfsClass := "http://www.w3.org/2000/01/rdf-schema#Class"

def owlThing := "http://www.w3.org/2002/07/owl#Thing"
def owlNothing := "http://www.w3.org/2002/07/owl#Nothing"
def owlClass := "http://www.w3.org/2002/07/owl#Class"
def owlDisjointWith := "http://www.w3.org/2002/07/owl#disjointWith"
def owlObjectProperty := "http://www.w3.org/2002/07/owl#ObjectProperty"
def owlDatatypeProperty := "http://www.w3.org/2002/07/owl#DatatypeProperty"
def owlNamedIndividual := "http://www.w3.org/2002/07/owl#NamedIndividual"

def xsdString := "http://www.w3.org/2001/XMLSchema#string"
def xsdInteger := "http://www.w3.org/2001/XMLSchema#integer"
def xsdDecimal := "http://www.w3.org/2001/XMLSchema#decimal"
def xsdDouble := "http://www.w3.org/2001/XMLSchema#double"
def xsdBoolean := "http://www.w3.org/2001/XMLSchema#boolean"

end Semlift.Rdf.Vocabulary
