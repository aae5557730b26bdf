import Semlift.Number.Layout
import Semlift.Number.Read
import Semlift.Rdf.Vocabulary
import Semlift.Text.Byte
import Semlift.Value

/-!
Terms, triples and patterns. A literal always has a datatype; its language is empty unless it is a
string in a language, and then the datatype is `rdf:langString`.
-/

namespace Semlift.Rdf

inductive Term where
  | iri (name : String)
  | blank (label : String)
  | literal (lexical datatype language : String)
  deriving DecidableEq, Repr

namespace Term

def typed (lexical datatype : String) : Term := .literal lexical datatype ""

def string (lexical : String) : Term := typed lexical Vocabulary.xsdString

def langString (lexical language : String) : Term :=
  .literal lexical Vocabulary.rdfLangString language

def integer (n : Int64) : Term := typed (Number.intText n.toInt) Vocabulary.xsdInteger

def double (x : Number.Double) : Term := typed (Number.doubleText x) Vocabulary.xsdDouble

def boolean (b : Bool) : Term := typed (Value.boolText b) Vocabulary.xsdBoolean

def isIri : Term → Bool
  | .iri _ => true
  | _ => false

def isBlank : Term → Bool
  | .blank _ => true
  | _ => false

def isLiteral : Term → Bool
  | .literal .. => true
  | _ => false

/-- The IRI, the label or the lexical text. -/
def content : Term → String
  | .iri name => name
  | .blank label => label
  | .literal lexical .. => lexical

def isNumericType (datatype : String) : Bool :=
  datatype == Vocabulary.xsdInteger || datatype == Vocabulary.xsdDecimal ||
    datatype == Vocabulary.xsdDouble

def isNumeric : Term → Bool
  | .literal _ datatype _ => isNumericType datatype
  | _ => false

/-- The number that a numeric literal spells; one plus sign may stand in front of it. -/
def number? : Term → Option Number.Double
  | .literal lexical datatype _ =>
    if isNumericType datatype then
      match lexical.toList with
      | '+' :: cs => Number.readDouble? cs
      | cs => Number.readDouble? cs
    else none
  | _ => none

def ntriples : Term → String
  | .iri name => "<" ++ name ++ ">"
  | .blank label => "_:" ++ label
  | .literal lexical datatype language =>
    if language.isEmpty then Text.quote lexical ++ "^^<" ++ datatype ++ ">"
    else Text.quote lexical ++ "@" ++ language

theorem toList_ntriples_iri {name : String} :
    (iri name).ntriples.toList = '<' :: (name.toList ++ ['>']) := by simp [ntriples]

theorem toList_ntriples_blank {label : String} :
    (blank label).ntriples.toList = '_' :: ':' :: label.toList := by simp [ntriples]

end Term

structure Triple where
  subject : Term
  predicate : Term
  object : Term
  deriving DecidableEq, Repr

def Triple.ntriples (t : Triple) : String :=
  t.subject.ntriples ++ " " ++ t.predicate.ntriples ++ " " ++ t.object.ntriples ++ " ."

/-- A triple with holes: an absent position matches every term. -/
structure TriplePattern where
  subject : Option Term
  predicate : Option Term
  object : Option Term
  deriving DecidableEq, Repr

namespace TriplePattern

def any : TriplePattern := ⟨none, none, none⟩

def fits (wanted : Option Term) (t : Term) : Bool := wanted.all (· == t)

def covers (p : TriplePattern) (t : Triple) : Bool :=
  fits p.subject t.subject && fits p.predicate t.predicate && fits p.object t.object

@[simp] theorem any_covers (t : Triple) : any.covers t = true := rfl

end TriplePattern

end Semlift.Rdf
