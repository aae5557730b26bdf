import Semlift.Query.Basic
import Semlift.Query.Token
import Semlift.Rdf.Prefixes

/-!
Reading queries: `SELECT` with variables or a star, a group of patterns and filters, an order, a
limit and an offset. Names may use prefixes declared in front. A fault names the place of the token
that could not be used.
-/

namespace Semlift.Query

open Semlift.Rdf

/-- Why a text is no query: a fault with its place, or a count that exceeds 64 bits. -/
inductive Rejection where
  | fault (offset : Nat) (f : Fault)
  | countTooLarge
  deriving DecidableEq, Repr

def Rejection.failure : Rejection → Failure
  | .fault offset f =>
    .reported (.runtime ("query offset " ++ Number.natText offset ++ ": " ++ f.message))
  | .countTooLarge => .numberTooLarge

/-- A query under way: the tokens that are left, the declared prefixes, the number of the next
unnamed node, and the patterns and filters so far. -/
structure Draft where
  rest : List Token
  prefixes : Prefixes
  nextBlank : Nat
  patterns : List Pattern
  filters : List Filter

/-- What stops the reading: a fault at the current token, or a count too large. -/
inductive Stop where
  | fault (f : Fault)
  | countTooLarge

abbrev Step := ExceptT Stop (StateM Draft)

namespace Step

def fail {α : Type} (f : Fault) : Step α := throw (.fault f)

/-- The current token; the end stands after the last one. -/
def current : Step Token := return (← get).rest.headD ⟨.done, "", 0⟩

/-- Goes on to the next token, but never past the end. -/
def advance : Step Unit := modify fun d => { d with rest := match d.rest with
  | t :: more => if t.kind = .done then t :: more else more
  | [] => [] }

/-- The text of the current token, which is used up. -/
def take : Step String := do
  let t ← current
  advance
  return t.text

def atPunct (p : String) : Step Bool := do
  let t ← current
  return t.kind == .punct && t.text == p

def upper (s : String) : String := String.ofList (s.toList.map Char.toUpper)

/-- Keywords may be written in any case of letters. -/
def atKeyword (k : String) : Step Bool := do
  let t ← current
  return t.kind == .word && upper t.text == k

def punct (p : String) : Step Unit := do
  if ← atPunct p then advance else fail (.expectedPunct p (← current).text)

def keyword (k : String) : Step Unit := do
  if ← atKeyword k then advance else fail (.expectedKeyword k (← current).text)

def atKind (k : TokenKind) : Step Bool := return (← current).kind == k

def iri : Step Term := do
  let t ← current
  match t.kind with
  | .iri => advance; return .iri t.text
  | .prefixed =>
    match (← get).prefixes.expand t.text with
    | .ok name => advance; return .iri name
    | .error _ => fail (.unresolved t.text)
  | _ => fail (.noIri t.text)

/-- A sign in front of a constant: a plus is not written, and only numbers keep a minus. -/
def sign : Step String := do
  if ← atPunct "-" then advance; return "-"
  else if ← atPunct "+" then advance; return ""
  else return ""

/-- A quoted text, a number or a truth value. Numbers with a fraction are doubles. -/
def constant : Step Term := do
  let s ← sign
  let t ← current
  match t.kind with
  | .string =>
    advance
    if ← atPunct "@" then
      advance
      if ← atKind .word then return .langString t.text (← take) else fail .noLanguage
    else if ← atPunct "^^" then
      advance
      return .typed t.text (← iri).content
    else return .string t.text
  | .integer => advance; return .typed (s ++ t.text) Vocabulary.xsdInteger
  | .decimal | .double => advance; return .typed (s ++ t.text) Vocabulary.xsdDouble
  | .word =>
    if t.text = "true" || t.text = "false" then
      advance
      return .boolean (t.text == "true")
    else fail (.noLiteral t.text)
  | _ => fail (.noLiteral t.text)

def verb : Step Node := do
  let t ← current
  if t.kind = .word && t.text = "a" then advance; return .term (.iri Vocabulary.rdfType)
  else if t.kind = .var then advance; return .var t.text
  else return .term (← iri)

def emit (p : Pattern) : Step Unit := modify fun d => { d with patterns := d.patterns ++ [p] }

def freshNode : Step Node := do
  let n := (← get).nextBlank
  modify fun d => { d with nextBlank := n + 1 }
  return blankVar (Number.natText n)

def semicolons : Step Unit :=
  modify fun d => { d with rest := d.rest.dropWhile fun t => t.kind == .punct && t.text == ";" }

mutual

/-- A subject or an object, with the patterns that its brackets hold. -/
def node : (fuel : Nat) → Step Node
  | 0 => fail .tooDeep
  | n + 1 => do
    let t ← current
    match t.kind with
    | .var => advance; return .var t.text
    | .blank => advance; return blankVar t.text
    | .iri | .prefixed => return .term (← iri)
    | .punct =>
      if t.text = "[" then bracketed n
      else if t.text = "-" || t.text = "+" then return .term (← constant)
      else fail (.unexpectedInPattern t.text)
    | _ => return .term (← constant)

/-- An unnamed node with its properties between brackets. -/
def bracketed : (fuel : Nat) → Step Node
  | 0 => fail .tooDeep
  | n + 1 => do
    punct "["
    let x ← freshNode
    if !(← atPunct "]") then properties n x
    punct "]"
    return x

/-- Objects between commas. -/
def objects : (fuel : Nat) → (subject predicate : Node) → Step Unit
  | 0, _, _ => fail .tooDeep
  | n + 1, subject, predicate => do
    let x ← node n
    emit ⟨subject, predicate, x⟩
    if ← atPunct "," then
      advance
      objects n subject predicate

/-- Predicates with their objects between semicolons. -/
def properties : (fuel : Nat) → (subject : Node) → Step Unit
  | 0, _ => fail .tooDeep
  | n + 1, subject => do
    let predicate ← verb
    objects n subject predicate
    if ← atPunct ";" then
      semicolons
      if (← atPunct ".") || (← atPunct "\x7d") || (← atPunct "]") then return
      else properties n subject

end

/-- The levels of filter expressions, from the tightest. -/
inductive Level where
  | unary | product | sum | relation | conjunction | disjunction
  deriving DecidableEq, Repr

def Level.tighter : Level → Level
  | .disjunction => .conjunction
  | .conjunction => .relation
  | .relation => .sum
  | .sum => .product
  | .product | .unary => .unary

def Level.operator? : Level → String → Option (Filter → Filter → Filter)
  | .disjunction, "||" => some (.connect .or)
  | .conjunction, "&&" => some (.connect .and)
  | .relation, "=" => some (.relate .eq)
  | .relation, "!=" => some (.relate .ne)
  | .relation, "<" => some (.relate .lt)
  | .relation, "<=" => some (.relate .le)
  | .relation, ">" => some (.relate .gt)
  | .relation, ">=" => some (.relate .ge)
  | .sum, "+" => some (.operate .add)
  | .sum, "-" => some (.operate .sub)
  | .product, "*" => some (.operate .mul)
  | .product, "/" => some (.operate .div)
  | _, _ => none

/-- Only one relation may stand between two sums. -/
def Level.repeats (l : Level) : Bool := l != .relation

def function : Step Function := do
  let name := upper (← take)
  match Function.all.find? (·.text == name) with
  | some f => return f
  | none => fail (.unknownFunction name)

mutual

/-- An expression of a level: operands of the next tighter level with operators between them. -/
def expression : (fuel : Nat) → Level → Step Filter
  | 0, _ => fail .tooDeep
  | n + 1, .unary => do
    if ← atPunct "!" then
      advance
      return .not (← expression n .unary)
    else if ← atPunct "-" then
      advance
      return .neg (← expression n .unary)
    else
      if ← atPunct "+" then advance
      primary n
  | n + 1, level => do
    let first ← expression n level.tighter
    chain n level first

/-- What follows the operands read so far. -/
def chain : (fuel : Nat) → Level → Filter → Step Filter
  | 0, _, _ => fail .tooDeep
  | n + 1, level, so => do
    let t ← current
    match if t.kind = .punct then level.operator? t.text else none with
    | none => return so
    | some op =>
      advance
      let next ← expression n level.tighter
      if level.repeats then chain n level (op so next) else return op so next

/-- An expression in parentheses, a variable, a name, a call or a constant. -/
def primary : (fuel : Nat) → Step Filter
  | 0 => fail .tooDeep
  | n + 1 => do
    let t ← current
    if ← atPunct "(" then
      advance
      let e ← expression n .disjunction
      punct ")"
      return e
    else if t.kind = .var then advance; return .var t.text
    else if t.kind = .iri || t.kind = .prefixed then return .const (← iri)
    else if t.kind = .word && t.text ≠ "true" && t.text ≠ "false" then
      let f ← function
      punct "("
      let args ← if ← atPunct ")" then pure [] else arguments n
      punct ")"
      return .call f args
    else return .const (← constant)

/-- Expressions between commas. -/
def arguments : (fuel : Nat) → Step (List Filter)
  | 0 => fail .tooDeep
  | n + 1 => do
    let first ← expression n .disjunction
    if ← atPunct "," then
      advance
      return first :: (← arguments n)
    else return [first]

end

/-- Enough for any list of tokens: no eight nested calls use less than one token. -/
def fuel : Step Nat := return 8 * (← get).rest.length + 8

def triples : Step Unit := do
  let n ← fuel
  if ← atPunct "[" then
    let subject ← bracketed n
    if (← atPunct ".") || (← atPunct "\x7d") then return
    else properties n subject
  else
    let subject ← node n
    properties n subject

/-- One member of a group, and the point that may follow it. -/
def member : Step Unit := do
  if ← atKeyword "FILTER" then
    advance
    let e ← primary (← fuel)
    modify fun d => { d with filters := d.filters ++ [e] }
  else triples
  if ← atPunct "." then advance

/-- Every member uses at least one token. -/
def members : (fuel : Nat) → Step Unit
  | 0 => fail .tooDeep
  | n + 1 => do
    if ← atPunct "\x7d" then advance
    else if ← atKind .done then fail .openGroup
    else
      member
      members n

def group : Step Unit := do
  punct "\x7b"
  members ((← get).rest.length + 1)

/-- Prefix declarations in front of the query. -/
def prologue : (fuel : Nat) → Step Unit
  | 0 => return
  | n + 1 => do
    if ← atKeyword "PREFIX" then
      advance
      let t ← current
      let named := t.text.toList
      if t.kind ≠ .prefixed || named.getLast? ≠ some ':' then fail .noPrefixName
      advance
      if !(← atKind .iri) then fail .noNamespace
      let ns ← take
      modify fun d => { d with prefixes := d.prefixes.add (String.ofList named.dropLast) ns }
      prologue n

/-- Takes the variables in front. -/
def columnNames : Step (List String) := do
  let names := ((← get).rest.takeWhile (·.kind == .var)).map (·.text)
  modify fun d => { d with rest := d.rest.dropWhile (·.kind == .var) }
  return names

def projection : Step Projection := do
  if ← atPunct "*" then
    advance
    return .all
  else
    let names ← columnNames
    if names.isEmpty then fail .noProjection
    return .these names

/-- Variables, alone or with their direction. -/
def orderKeys : (fuel : Nat) → Step (List OrderKey)
  | 0 => return []
  | n + 1 => do
    if ← atKind .var then
      let name ← take
      return ⟨name, false⟩ :: (← orderKeys n)
    else if (← atKeyword "ASC") || (← atKeyword "DESC") then
      let descending ← atKeyword "DESC"
      advance
      punct "("
      if !(← atKind .var) then fail .noOrderVariable
      let name ← take
      punct ")"
      return ⟨name, descending⟩ :: (← orderKeys n)
    else return []

def order : Step (List OrderKey) := do
  if ← atKeyword "ORDER" then
    advance
    keyword "BY"
    let keys ← orderKeys (← get).rest.length
    if keys.isEmpty then fail .noOrderKeys
    return keys
  else return []

def count : Step Nat := do
  if !(← atKind .integer) then fail .noCount
  let n := Text.digitsValue (← take).toList
  if n < UInt64.size then return n else throw .countTooLarge

/-- A limit or an offset, if one stands here. A later one of a kind wins. -/
def bound (cuts : Option Nat × Option Nat) : Step (Option Nat × Option Nat) := do
  if ← atKeyword "LIMIT" then
    advance
    return (some (← count), cuts.2)
  else if ← atKeyword "OFFSET" then
    advance
    return (cuts.1, some (← count))
  else return cuts

def query : Step Select := do
  prologue (← get).rest.length
  keyword "SELECT"
  let distinct ← atKeyword "DISTINCT"
  if distinct then advance
  let shown ← projection
  if ← atKeyword "WHERE" then advance
  group
  let keys ← order
  let (limit, offset) ← bound (← bound (none, none))
  if !(← atKind .done) then fail (.afterQuery (← current).text)
  let d ← get
  return ⟨distinct, shown, d.patterns, d.filters, keys, limit, offset⟩

end Step

/-- Reads a query; names are resolved with the given prefixes and those declared in its text. -/
def parse (text : String) (prefixes : Prefixes) : Except Rejection Select :=
  match tokens text with
  | .error (offset, f) => .error (.fault offset f)
  | .ok ts =>
    match Step.query.run.run ⟨ts, prefixes, 0, [], []⟩ with
    | (.ok q, _) => .ok q
    | (.error (.fault f), d) => .error (.fault (d.rest.headD ⟨.done, "", 0⟩).offset f)
    | (.error .countTooLarge, _) => .error .countTooLarge

end Semlift.Query
