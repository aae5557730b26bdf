import Mathlib.Tactic.Lemma
import Semlift.Rdf.Turtle.Reader

/-!
Reading with a place in the text. The readers are written once more, with the whole text at hand and
a place that moves in it, back and forth and character by character, so that it can go too far: a
look ahead gives the NUL character there, but a character or a piece cannot be taken. Each loop has
a number of turns that it must not need. The furthest place is kept.
-/

namespace Semlift.Rdf.Turtle

open Semlift.Text

/-- What ends a reading early. -/
inductive Raised where
  | diagnostic (error : SyntaxError)
  /-- A character or a piece is taken from outside of the text. -/
  | outOfRange
  /-- A loop or a nesting needs more turns than it has. -/
  | unfinished
  deriving DecidableEq, Repr

/-- A document under way: the reader, the place in the text, the furthest place there was and the
triples so far. -/
structure Cursor where
  reader : Reader
  pos : Nat
  far : Nat
  graph : Graph

/-- A step of reading in a text. -/
abbrev Scan := ReaderT (List Char) (ExceptT Raised (StateM Cursor))

/-- The difference of two sizes, of 64 bits without a sign. -/
def sizeSub (a b : Nat) : Nat := if b ≤ a then a - b else UInt64.size - (b - a)

namespace Scan

variable {α : Type}

def runAt (y : Scan α) (cs : List Char) (s : Cursor) : Except Raised α × Cursor :=
  (y.run cs).run.run s

/-! ### Characters -/

def place : Scan Nat := return (← get).pos

/-- A fault comes with the line of the place where it is found. -/
def fail (fault : Fault) : Scan α := do
  throw (.diagnostic ⟨1 + count '\n' ((← read).take (← place)), fault⟩)

def atEnd : Scan Bool := return decide ((← read).length ≤ (← place))

/-- The character `n` places ahead. -/
def ahead (n : Nat) : Scan Char := return at' (← read) ((← place) + n)

def charAt (i : Nat) : Scan Char := do
  match (← read)[i]? with
  | some c => return c
  | none => throw .outOfRange

/-- The text between two places; if they are the wrong way round, there is no end to it. -/
def piece (start stop : Nat) : Scan (List Char) := do
  let cs ← read
  if cs.length < start then throw .outOfRange
  else if stop < start then return cs.drop start
  else return (cs.drop start).take (stop - start)

def move (n : Nat) : Scan Unit :=
  modify fun s => { s with pos := s.pos + n, far := max s.far (s.pos + n) }

def back : Scan Unit := do
  if (← place) = 0 then throw .outOfRange
  else modify fun s => { s with pos := s.pos - 1 }

/-- Enough turns for a loop that passes a character in each of them. -/
def turns : Scan Nat := return (← read).length + 1

def whileTurns (test : Scan Bool) : (fuel : Nat) → Scan Unit
  | 0 => throw .unfinished
  | n + 1 => do
    if ← test then
      move 1
      whileTurns test n

/-- Passes characters as long as a test holds. -/
def passWhile (test : Scan Bool) : Scan Unit := do whileTurns test (← turns)

def comment : Scan Unit :=
  passWhile do
    if ← atEnd then return false
    else return (← ahead 0) != '\n'

def blankTurns : (fuel : Nat) → Scan Unit
  | 0 => throw .unfinished
  | n + 1 => do
    if ← atEnd then return
    else
      let c ← ahead 0
      if c == '#' then
        comment
        blankTurns n
      else if isBlank c then
        move 1
        blankTurns n

def blanks : Scan Unit := do blankTurns (← turns)

def expect (wanted : Char) : Scan Unit := do
  blanks
  let c ← ahead 0
  if c != wanted then
    if ← atEnd then fail (.expectedAtEnd wanted)
    else fail (.expected wanted c)
  else move 1

/-- A keyword is ahead, in any case of letters, with a blank behind it. -/
def keywordAhead (keyword : String) : Scan Bool := do
  let start ← place
  let n := keyword.length
  if sizeSub (← read).length start ≤ n then return false
  else if (← piece start (start + n)).map Char.toLower = keyword.toList.map Char.toLower then
    return isBlank (← charAt (start + n))
  else return false

/-- A word is ahead that ends where it does. -/
def wordAhead (word : String) : Scan Bool := do
  let left ← piece (← place) (← read).length
  let after ← ahead word.length
  return word.toList.isPrefixOf left && !isNameChar after && after != ':'

/-! ### Terms -/

/-- The inside of a reference and its closing bracket. -/
def referenceChars : (fuel : Nat) → Scan (List Char)
  | 0 => throw .unfinished
  | n + 1 => do
    if ← atEnd then fail .openIri
    else
      let c ← ahead 0
      if c = '>' then
        move 1
        return []
      else if c = '\n' || c = ' ' then fail .blankInIri
      else
        move 1
        return c :: (← referenceChars n)

/-- A reference between angle brackets, as it is written. -/
def iriReference : Scan String := do
  if (← ahead 0) != '<' then fail .noIriReference
  else
    move 1
    return String.ofList (← referenceChars (← turns))

def reference : Scan String := do
  let iri ← iriReference
  return (← get).reader.resolve iri

/-- Passes the name in front of a colon or of the end of the text. -/
def prefixChars (bad : Char → Fault) : (fuel : Nat) → Scan Unit
  | 0 => throw .unfinished
  | n + 1 => do
    if ← atEnd then return
    else
      let c ← ahead 0
      if c = ':' then return
      else if isNameChar c then
        move 1
        prefixChars bad n
      else fail (bad c)

def localChars : (fuel : Nat) → Scan (List Char)
  | 0 => throw .unfinished
  | n + 1 => do
    if ← atEnd then return []
    else
      let c ← ahead 0
      let after := (← place) + 1
      if c == '\\' && decide (after < (← read).length) then
        let e ← charAt after
        move 2
        return e :: (← localChars n)
      else if c == '%' || c == ':' || isNameChar c then
        move 1
        return c :: (← localChars n)
      else return []

/-- Points at the end of a name, here from its end on, are given back. -/
def givePoints : List Char → Scan (List Char)
  | '.' :: more => do
    back
    givePoints more
  | cs => return cs.reverse

def localName : Scan String := do
  let name ← localChars (← turns)
  return String.ofList (← givePoints name.reverse)

/-- A reference or a prefixed name. -/
def name : Scan Term := do
  blanks
  if ← atEnd then fail .noIriAtEnd
  else if (← ahead 0) == '<' then return .iri (← reference)
  else
    let start ← place
    prefixChars .unexpected (← turns)
    if ← atEnd then fail .noColon
    else
      let before := String.ofList (← piece start (← place))
      move 1
      let loc ← localName
      match (← get).reader.prefixes.find? before with
      | none => fail (.undeclared before)
      | some ns => return .iri (ns ++ loc)

/-- Goes back over points, as far as to the start of a label. -/
def trimTurns (start : Nat) : (fuel : Nat) → Scan Unit
  | 0 => throw .unfinished
  | n + 1 => do
    let here ← place
    if start < here then
      if (← charAt (here - 1)) == '.' then
        back
        trimTurns start n

/-- The label of a blank node; points at its end are not part of it. -/
def blankLabel : Scan String := do
  let start ← place
  passWhile do
    if ← atEnd then return false
    else return isNameChar (← ahead 0)
  trimTurns start (← turns)
  let stop ← place
  if stop = start then fail .emptyLabel
  else return String.ofList (← piece start stop)

def labelled : Scan Term := do
  move 2
  let label ← blankLabel
  return .blank ((← get).reader.blankPrefix ++ label)

/-- The inside of a quoted text and its closing quote; three quotes close a long one. -/
def stringChars (mark : Char) (long : Bool) : (fuel : Nat) → Scan (List Char)
  | 0 => throw .unfinished
  | n + 1 => do
    if ← atEnd then fail .openString
    else
      let c ← ahead 0
      let d ← ahead 1
      let e ← ahead 2
      if long && c == mark && d == mark && e == mark then
        move 3
        return []
      else if !long && c == mark then
        move 1
        return []
      else if !long && c == '\n' then fail .newlineInString
      else if c == '\\' then
        move 2
        match unescape? d with
        | none => fail (.badEscape d)
        | some x => return x :: (← stringChars mark long n)
      else
        move 1
        return c :: (← stringChars mark long n)

def quoted : Scan String := do
  let mark ← ahead 0
  let d ← ahead 1
  let e ← ahead 2
  let long := d == mark && e == mark
  move (if long then 3 else 1)
  return String.ofList (← stringChars mark long (← turns))

/-- A quoted text with its language or datatype. -/
def literal : Scan Term := do
  let lexical ← quoted
  let c ← ahead 0
  let d ← ahead 1
  if c == '@' then
    move 1
    let start ← place
    passWhile do
      let c ← ahead 0
      return c.isAlphanum || c == '-'
    return .langString lexical (String.ofList (← piece start (← place)))
  else if c == '^' && d == '^' then
    move 2
    return .typed lexical (← name).content
  else return .string lexical

def sign : Scan Unit := do
  if isSign (← ahead 0) then move 1

/-- Passes digits and counts them. -/
def digits : Scan Nat := do
  let start ← place
  passWhile do return (← ahead 0).isDigit
  return (← place) - start

def numeralFrom (start : Nat) (datatype : String) : Scan Term := do
  return .typed (String.ofList (← piece start (← place))) datatype

/-- What follows the digits of a number and of its fraction. -/
def exponent (start : Nat) (datatype : String) : Scan Term := do
  let c ← ahead 0
  if c == 'e' || c == 'E' then
    move 1
    sign
    if (← digits) = 0 then fail .malformedExponent
    else numeralFrom start Vocabulary.xsdDouble
  else numeralFrom start datatype

/-- A number with its sign: digits are an integer, a fraction makes a decimal, an exponent a
double. -/
def numeral : Scan Term := do
  let start ← place
  sign
  let whole ← digits
  let c ← ahead 0
  let d ← ahead 1
  if c == '.' && d.isDigit then
    move 1
    let _ ← digits
    exponent start Vocabulary.xsdDecimal
  else if whole = 0 then fail .malformedNumber
  else exponent start Vocabulary.xsdInteger

/-- The predicate, for which the letter `a` is short when certain characters follow. -/
def verb : Scan Term := do
  blanks
  let after ← ahead 1
  let c ← ahead 0
  if c == 'a' &&
      (isBlank after || after == '<' || after == '[' || after == '"' || after == '_') then
    move 1
    return .iri Vocabulary.rdfType
  else name

/-! ### Triples -/

def emit (subject predicate object : Term) : Scan Unit :=
  modify fun s => { s with graph := s.graph.add ⟨subject, predicate, object⟩ }

def freshBlank : Scan Term := do
  let r := (← get).reader
  modify fun s => { s with reader.nextBlank := r.nextBlank + 1 }
  return .blank (r.blankPrefix ++ "b" ++ Number.natText r.nextBlank)

/-- The cells of a collection in order, each with its item and the cell after it. -/
def emitCells : List (Term × Term) → Scan Unit
  | [] => return
  | (cell, item) :: more => do
    emit cell (.iri Vocabulary.rdfFirst) item
    emit cell (.iri Vocabulary.rdfRest)
      (match more with
        | [] => .iri Vocabulary.rdfNil
        | (next, _) :: _ => next)
    emitCells more

def collectionOf (items : List Term) : Scan Term := do
  let cells ← items.mapM fun _ => freshBlank
  emitCells (cells.zip items)
  return cells.headD (.iri Vocabulary.rdfNil)

def semicolonTurns : (fuel : Nat) → Scan Unit
  | 0 => throw .unfinished
  | n + 1 => do
    if (← ahead 0) == ';' then
      move 1
      blanks
      semicolonTurns n

mutual

/-- An object, with the triples that its brackets hold. -/
def object : (fuel : Nat) → Scan Term
  | 0 => throw .unfinished
  | n + 1 => do
    blanks
    let c ← ahead 0
    let d ← ahead 1
    if c == '[' then
      expect '['
      let node ← freshBlank
      blanks
      if (← ahead 0) != ']' then properties n node
      expect ']'
      return node
    else if c == '(' then
      expect '('
      blanks
      collectionOf (← items n)
    else if c == '_' && d == ':' then labelled
    else if c == '"' || c == '\'' then literal
    else if c.isDigit || isSign c || (c == '.' && d.isDigit) then numeral
    else if ← wordAhead "true" then
      move 4
      return .boolean true
    else if ← wordAhead "false" then
      move 5
      return .boolean false
    else name

/-- The items of a collection and its closing parenthesis. -/
def items : (fuel : Nat) → Scan (List Term)
  | 0 => throw .unfinished
  | n + 1 => do
    if (← ahead 0) == ')' then
      move 1
      return []
    else if ← atEnd then fail .openCollection
    else
      let t ← object n
      blanks
      return t :: (← items n)

/-- Objects between commas. -/
def objects : (fuel : Nat) → (subject predicate : Term) → Scan Unit
  | 0, _, _ => throw .unfinished
  | n + 1, subject, predicate => do
    let t ← object n
    emit subject predicate t
    blanks
    if (← ahead 0) == ',' then
      move 1
      objects n subject predicate

/-- Predicates with their objects between semicolons. -/
def properties : (fuel : Nat) → (subject : Term) → Scan Unit
  | 0, _ => throw .unfinished
  | n + 1, subject => do
    let predicate ← verb
    objects n subject predicate
    blanks
    if (← ahead 0) == ';' then
      semicolonTurns (← turns)
      let next ← ahead 0
      if next == '.' || next == ']' || (← atEnd) then return
      else properties n subject

end

def fuel : Scan Nat := return 3 * ((← read).length - (← place)) + 3

def triples : Scan Unit := do
  blanks
  let n ← fuel
  let c ← ahead 0
  if c == '[' then
    let subject ← object n
    blanks
    if (← ahead 0) != '.' then properties n subject
  else if c == '(' || (c == '_' && (← ahead 1) == ':') then
    properties n (← object n)
  else
    properties n (← name)

/-! ### Statements -/

/-- The name and the namespace of a declared prefix. -/
def declaration : Scan Unit := do
  blanks
  let start ← place
  prefixChars (fun _ => .malformedPrefix) (← turns)
  let declared := String.ofList (← piece start (← place))
  expect ':'
  blanks
  let ns ← reference
  modify fun s => { s with reader.prefixes := s.reader.prefixes.add declared ns }

def baseDeclaration : Scan Unit := do
  blanks
  let base ← reference
  modify fun s => { s with reader.base := base }

/-- A directive that begins with `@` and ends with a point. -/
def directive : Scan Unit := do
  move 1
  let start ← place
  passWhile do return (← ahead 0).isAlpha
  let word := String.ofList (← piece start (← place))
  if word = "prefix" then declaration
  else if word = "base" then baseDeclaration
  else fail (.unknownDirective word)
  expect '.'

def statement : Scan Unit := do
  if (← ahead 0) == '@' then directive
  else if ← keywordAhead "PREFIX" then
    move 6
    declaration
  else if ← keywordAhead "BASE" then
    move 4
    baseDeclaration
  else
    triples
    expect '.'

def statementTurns : (fuel : Nat) → Scan Unit
  | 0 => throw .unfinished
  | n + 1 => do
    blanks
    if ← atEnd then return
    else
      statement
      statementTurns n

def document : Scan Unit := do statementTurns (← turns)

/-- Predicates and objects about one subject, and nothing else but a point. -/
def about (subject : Term) : Scan Unit := do
  blanks
  if ← atEnd then return
  else
    properties (← fuel) subject
    blanks
    if !(← atEnd) && (← ahead 0) == '.' then
      move 1
      blanks
    if !(← atEnd) then fail (.afterList (← ahead 0))

end Scan

/-- What a text is read as: a document, or predicates and objects about a subject. -/
inductive Task where
  | document
  | about (subject : Term)

def Task.step : Task → Step Unit
  | .document => Step.document
  | .about subject => Step.about subject

def Task.scan : Task → Scan Unit
  | .document => Scan.document
  | .about subject => Scan.about subject

/-- How reading a text into a graph ends: with the furthest place and with what the graph is. -/
structure Outcome where
  result : Except Raised Unit
  reader : Reader
  far : Nat
  target : Graph

/-- Reads a text into a graph. The triples are gathered apart and added when all is read. -/
def Reader.parseInto (r : Reader) (task : Task) (text : String) (target : Graph) : Outcome :=
  match task.scan.runAt text.toList ⟨r, 0, 0, .empty⟩ with
  | (.ok (), s) => ⟨.ok (), s.reader, s.far, target.addAll s.graph.triples⟩
  | (.error e, s) => ⟨.error e, s.reader, s.far, target⟩

end Semlift.Rdf.Turtle
