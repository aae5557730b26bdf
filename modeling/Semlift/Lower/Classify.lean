import Semlift.Number.Read
import Semlift.Program.Basic
import Semlift.Query.Table
import Semlift.Store.Heap

/-!
From answers of a query to values, by the identifier of an answer. The identifier of a live object
is that object; quotes make a string, digits an integer, digits with a point inside a double. Signs
and exponents make no numbers.
-/

namespace Semlift.Lower

open Semlift.Rdf Semlift.Store Semlift.Text

/-- What follows the last `#` or `/`, all of the text without any. -/
def afterLastMark (iri : String) : String :=
  String.ofList (iri.toList.reverse.takeWhile fun c => c != '#' && c != '/').reverse

/-- An IRI loses its namespace, a string gets quotes, any other literal is its text and a blank node
its label. -/
def identifier (prefixes : Prefixes) : Term → String
  | .iri name => (prefixes.localName? name).getD (afterLastMark name)
  | .blank label => label
  | .literal lexical datatype _ =>
    if datatype = Vocabulary.xsdString || datatype = Vocabulary.rdfLangString then
      "\"" ++ lexical ++ "\""
    else lexical

/-- Why an identifier stands for no value. -/
inductive Misfit where
  | outOfRange (identifier : String)
  | unknownShape (identifier : String)
  deriving DecidableEq, Repr

def Misfit.message : Misfit → String
  | .outOfRange name => "integer literal out of range: " ++ name
  | .unknownShape name => "unknown literal shape: " ++ name

def Misfit.diagnostic (m : Misfit) : Diagnostic := .runtime m.message

/-- The inside of a text with a quote at both ends. -/
def unquoted? : List Char → Option (List Char)
  | '"' :: cs => if cs.getLast? = some '"' then some cs.dropLast else none
  | _ => none

def isDigits (cs : List Char) : Bool := !cs.isEmpty && cs.all Char.isDigit

/-- Digits on both sides of the first point. -/
def isDecimal (cs : List Char) : Bool :=
  match splitFirst? '.' cs with
  | some (whole, rest) => isDigits whole && isDigits rest
  | none => false

/-- The value of an identifier that names no live object. -/
def literalValue (identifier : String) : Except Misfit Value :=
  let cs := identifier.toList
  match unquoted? cs with
  | some inside => .ok (.str (String.ofList inside))
  | none =>
    if isDigits cs then
      let n := digitsValue cs
      if n ≤ Int64.maxValue.toInt then .ok (.int (Int64.ofNat n))
      else .error (.outOfRange identifier)
    else if isDecimal cs then
      match Number.readDouble? cs with
      | some x => .ok (.double x)
      | none => .error (.unknownShape identifier)
    else .error (.unknownShape identifier)

def classify (heap : Heap) (identifier : String) : Except Misfit Value :=
  match heap.named? identifier with
  | some r => .ok (.object r)
  | none => literalValue identifier

/-- The value of an answer; an unbound cell is null. -/
def cellValue (prefixes : Prefixes) (heap : Heap) : Option Term → Except Misfit Value
  | none => .ok .null
  | some t => classify heap (identifier prefixes t)

/-! ### Lists

Each cell of a list is made in front of those made before it, so that the head holds the last
answer. Nothing is made unless every answer has a value. -/

/-- The fields of a list cell. -/
def cell (content next : Value) : Fields :=
  [(Program.contentField, content), (Program.nextField, next)]

/-- Puts a new cell in front of a list. -/
def prepend (list : Value × Heap) (v : Value) : Value × Heap :=
  let (r, heap) := list.2.allocate Program.listClass (cell v list.1)
  (.object r, heap)

def buildList (heap : Heap) (vs : List Value) : Value × Heap := vs.foldl prepend (.null, heap)

def lowerTerms (prefixes : Prefixes) (heap : Heap) (ts : List (Option Term)) :
    Except Misfit (Value × Heap) :=
  (ts.mapM (cellValue prefixes heap)).map (buildList heap)

/-- The cells of the first column; an answer without columns has none. -/
def firstColumn (t : Query.Table) : List (Option Term) :=
  if t.columns.isEmpty then [] else t.rows.map fun row => row.head?.join

def lowerTable (prefixes : Prefixes) (heap : Heap) (t : Query.Table) :
    Except Misfit (Value × Heap) :=
  lowerTerms prefixes heap (firstColumn t)

end Semlift.Lower
