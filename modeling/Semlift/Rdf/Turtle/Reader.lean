import Semlift.Rdf.Graph
import Semlift.Rdf.Prefixes
import Semlift.Rdf.Turtle.Lexeme

/-!
Reading documents. A reader keeps the declared prefixes, the base of relative references and the
number of the next anonymous node from one document to the next, also past a faulty one. The
triples of a faulty document are dropped.
-/

namespace Semlift.Rdf.Turtle

open Semlift.Text

structure Reader where
  prefixes : Prefixes
  base : String
  blankPrefix : String
  nextBlank : Nat
  deriving Inhabited

def Reader.new (prefixes : Prefixes) (blankPrefix : String) : Reader :=
  ⟨prefixes, "", blankPrefix, 0⟩

/-- A document under way: the reader, the text that is left and the triples so far. -/
structure Progress where
  reader : Reader
  rest : List Char
  graph : Graph

/-- A step of reading. The progress made before a fault is kept. -/
abbrev Step := ExceptT Fault (StateM Progress)

/-- A relative reference: a fragment replaces that of the base, any other text follows the base. A
colon makes a reference absolute. -/
def Reader.resolve (r : Reader) (iri : String) : String :=
  if r.base.isEmpty || iri.toList.contains ':' then iri
  else if iri.toList.head? = some '#' then
    String.ofList (r.base.toList.takeWhile (· != '#')) ++ iri
  else r.base ++ iri

namespace Step

def rest : Step (List Char) := return (← get).rest

def setRest (cs : List Char) : Step Unit := modify fun p => { p with rest := cs }

def drop (n : Nat) : Step Unit := modify fun p => { p with rest := p.rest.drop n }

def blanks : Step Unit := modify fun p => { p with rest := skip p.rest }

/-- The character `n` places ahead. -/
def ahead (n : Nat) : Step Char := return at' (← get).rest n

def atEnd : Step Bool := return (← get).rest.isEmpty

def lex {α : Type} (l : Lexer α) : Step α := do
  match l (← rest) with
  | .ok (a, cs) => setRest cs; return a
  | .error (fault, cs) => setRest cs; throw fault

def expect (wanted : Char) : Step Unit := do
  blanks
  match ← rest with
  | [] => throw (.expectedAtEnd wanted)
  | c :: cs => if c = wanted then setRest cs else throw (.expected wanted c)

def emit (subject predicate object : Term) : Step Unit :=
  modify fun p => { p with graph := p.graph.add ⟨subject, predicate, object⟩ }

def freshBlank : Step Term := do
  let r := (← get).reader
  modify fun p => { p with reader.nextBlank := r.nextBlank + 1 }
  return .blank (r.blankPrefix ++ "b" ++ Number.natText r.nextBlank)

def reference : Step String := do
  let iri ← lex iriReference
  return (← get).reader.resolve iri

/-- A reference or a prefixed name. -/
def name : Step Term := do
  blanks
  match ← rest with
  | [] => throw .noIriAtEnd
  | '<' :: _ => return .iri (← reference)
  | _ =>
    let before ← lex (prefixName .unexpected .noColon)
    drop 1
    let (loc, cs) := localName (← rest)
    setRest cs
    match (← get).reader.prefixes.find? before with
    | none => throw (.undeclared before)
    | some ns => return .iri (ns ++ loc)

def labelled : Step Term := do
  drop 2
  let label ← lex blankLabel
  return .blank ((← get).reader.blankPrefix ++ label)

/-- A quoted text with its language or datatype. -/
def literal : Step Term := do
  let lexical ← lex quoted
  match ← rest with
  | '@' :: cs =>
    let tag (c : Char) : Bool := c.isAlphanum || c == '-'
    setRest (cs.dropWhile tag)
    return .langString lexical (String.ofList (cs.takeWhile tag))
  | '^' :: '^' :: cs =>
    setRest cs
    return .typed lexical (← name).content
  | _ => return .string lexical

/-- The predicate, for which the letter `a` is short when certain characters follow. -/
def verb : Step Term := do
  blanks
  let after ← ahead 1
  if (← ahead 0) == 'a' &&
      (isBlank after || after == '<' || after == '[' || after == '"' || after == '_') then
    drop 1
    return .iri Vocabulary.rdfType
  else name

/-- The cells of a collection in order, each with its item and the cell after it. -/
def emitCells : List (Term × Term) → Step Unit
  | [] => return
  | (cell, item) :: more => do
    emit cell (.iri Vocabulary.rdfFirst) item
    emit cell (.iri Vocabulary.rdfRest)
      (match more with
        | [] => .iri Vocabulary.rdfNil
        | (next, _) :: _ => next)
    emitCells more

def collectionOf (items : List Term) : Step Term := do
  let cells ← items.mapM fun _ => freshBlank
  emitCells (cells.zip items)
  return cells.headD (.iri Vocabulary.rdfNil)

mutual

/-- An object, with the triples that its brackets hold. -/
def object : (fuel : Nat) → Step Term
  | 0 => throw .tooDeep
  | n + 1 => do
    blanks
    let c ← ahead 0
    let d ← ahead 1
    if c == '[' then
      drop 1
      let node ← freshBlank
      blanks
      if (← ahead 0) != ']' then properties n node
      expect ']'
      return node
    else if c == '(' then
      drop 1
      blanks
      collectionOf (← items n)
    else if c == '_' && d == ':' then labelled
    else if c == '"' || c == '\'' then literal
    else if c.isDigit || isSign c || (c == '.' && d.isDigit) then lex numeral
    else
      match truth? (← rest) with
      | some (t, cs) => setRest cs; return t
      | none => name

/-- The items of a collection and its closing parenthesis. -/
def items : (fuel : Nat) → Step (List Term)
  | 0 => throw .tooDeep
  | n + 1 => do
    if (← ahead 0) == ')' then
      drop 1
      return []
    else if ← atEnd then throw .openCollection
    else
      let t ← object n
      blanks
      return t :: (← items n)

/-- Objects between commas. -/
def objects : (fuel : Nat) → (subject predicate : Term) → Step Unit
  | 0, _, _ => throw .tooDeep
  | n + 1, subject, predicate => do
    let t ← object n
    emit subject predicate t
    blanks
    if (← ahead 0) == ',' then
      drop 1
      objects n subject predicate

/-- Predicates with their objects between semicolons. -/
def properties : (fuel : Nat) → (subject : Term) → Step Unit
  | 0, _ => throw .tooDeep
  | n + 1, subject => do
    let predicate ← verb
    objects n subject predicate
    blanks
    if (← ahead 0) == ';' then
      modify fun p => { p with rest := skipSemicolons p.rest }
      let next ← ahead 0
      if next == '.' || next == ']' || (← atEnd) then return
      else properties n subject

end

/-- Enough for any text: no three nested calls read less than one character. -/
def fuel : Step Nat := return 3 * (← rest).length + 3

def triples : Step Unit := do
  blanks
  let n ← fuel
  let c ← ahead 0
  if c == '[' then
    let subject ← object n
    blanks
    if (← ahead 0) != '.' then properties n subject
  else if c == '(' || (c == '_' && (← ahead 1) == ':') then
    properties n (← object n)
  else
    properties n (← name)

/-- The name and the namespace of a declared prefix. -/
def declaration : Step Unit := do
  blanks
  let declared ← lex (prefixName (fun _ => .malformedPrefix) (.expectedAtEnd ':'))
  drop 1
  blanks
  let ns ← reference
  modify fun p => { p with reader.prefixes := p.reader.prefixes.add declared ns }

def baseDeclaration : Step Unit := do
  blanks
  let base ← reference
  modify fun p => { p with reader.base := base }

/-- A directive that begins with `@` and ends with a point. -/
def directive : Step Unit := do
  drop 1
  let cs ← rest
  let word := String.ofList (cs.takeWhile Char.isAlpha)
  setRest (cs.dropWhile Char.isAlpha)
  if word = "prefix" then declaration
  else if word = "base" then baseDeclaration
  else throw (.unknownDirective word)
  expect '.'

def statement : Step Unit := do
  let cs ← rest
  if at' cs 0 == '@' then directive
  else
    match afterKeyword? "PREFIX" cs with
    | some after => setRest after; declaration
    | none =>
      match afterKeyword? "BASE" cs with
      | some after => setRest after; baseDeclaration
      | none => triples; expect '.'

/-- Every statement reads at least one character. -/
def statements : (fuel : Nat) → Step Unit
  | 0 => throw .tooDeep
  | n + 1 => do
    blanks
    if ← atEnd then return
    else
      statement
      statements n

def document : Step Unit := do statements ((← rest).length + 1)

/-- Predicates and objects about one subject, and nothing else but a point. -/
def about (subject : Term) : Step Unit := do
  blanks
  if ← atEnd then return
  properties (← fuel) subject
  blanks
  if (← ahead 0) == '.' then
    drop 1
    blanks
  match ← rest with
  | [] => return
  | c :: _ => throw (.afterList c)

end Step

/-- A fault and the line on which it was found. -/
structure SyntaxError where
  line : Nat
  fault : Fault
  deriving DecidableEq, Repr

def SyntaxError.diagnostic (e : SyntaxError) : Diagnostic :=
  .host ("turtle line " ++ Number.natText e.line ++ ": " ++ e.fault.message)

/-- Reads a whole text and gives its triples, or the fault with the line that had been reached. -/
def Reader.run (r : Reader) (step : Step Unit) (text : String) :
    Except SyntaxError Graph × Reader :=
  let cs := text.toList
  match step.run.run ⟨r, cs, .empty⟩ with
  | (.ok (), p) => (.ok p.graph, p.reader)
  | (.error fault, p) =>
    (.error ⟨1 + count '\n' (cs.take (cs.length - p.rest.length)), fault⟩, p.reader)

/-- The triples of a document. -/
def Reader.read (r : Reader) (text : String) : Except SyntaxError Graph × Reader :=
  r.run Step.document text

/-- The triples of a list of predicates and objects about a subject. -/
def Reader.readAbout (r : Reader) (subject : Term) (text : String) :
    Except SyntaxError Graph × Reader :=
  r.run (Step.about subject) text

def missingFile (path : String) : Diagnostic :=
  .host ("cannot open ontology file '" ++ path ++ "'")

/-- Reads a file by its path and content; without content there is no such file. -/
def Reader.readNamed (r : Reader) (path : String) : (content : Option String) →
    Checked Graph × Reader
  | none => (.error (missingFile path), r)
  | some text =>
    match r.read text with
    | (.ok g, r) => (.ok g, r)
    | (.error e, r) => (.error (e.diagnostic.withNote ("while reading '" ++ path ++ "'")), r)

end Semlift.Rdf.Turtle
