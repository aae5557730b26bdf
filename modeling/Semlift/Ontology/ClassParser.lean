import Semlift.Ontology.ClassExpr
import Semlift.Rdf.Prefixes

/-!
Reading class expressions: names, `and`, `or`, `not`, `some`, `value`, braces and parentheses.
Conjunction binds tighter than disjunction; a name without a colon lies in a default namespace.
-/

namespace Semlift.Ontology

open Semlift.Rdf Semlift.Text

inductive TokenKind where
  | name
  | string
  | number
  | punct
  | done
  deriving DecidableEq, Repr

structure Token where
  kind : TokenKind
  text : String
  deriving DecidableEq, Repr

/-- What can be wrong with a class expression. -/
inductive Fault where
  | openIri
  | openString
  | unexpected (found : String)
  | noClosing (wanted : String)
  | noClassName (found : String)
  | noIndividual (found : String)
  | unresolved (name : String)
  | tooDeep
  deriving DecidableEq, Repr

/-- The message of a fault in an expression. -/
def Fault.message (source : String) : Fault → String
  | .openIri => "unterminated IRI in class expression '" ++ source ++ "'"
  | .openString => "unterminated string in class expression '" ++ source ++ "'"
  | .unexpected found => about ("unexpected '" ++ found ++ "'")
  | .noClosing wanted => about ("expected '" ++ wanted ++ "'")
  | .noClassName found => about ("expected a class name but found '" ++ found ++ "'")
  | .noIndividual found => about ("expected an individual but found '" ++ found ++ "'")
  | .unresolved name => about ("cannot resolve name '" ++ name ++ "'")
  | .tooDeep => about "nesting too deep"
where
  about (message : String) : String := "class expression '" ++ source ++ "': " ++ message

def punctuation : List Char := ['(', ')', '\x7b', '\x7d', ',']

/-- Whether a character ends a word. -/
def endsWord (c : Char) : Bool := isBlank c || c ∈ punctuation || c == '<' || c == '"'

def isNumeric : List Char → Bool
  | '-' :: d :: _ => d.isDigit
  | d :: _ => d.isDigit
  | [] => false

/-- The token at the beginning of a text and how many characters it takes. -/
def tokenAt (c : Char) (cs : List Char) : Except Fault (Token × Nat) :=
  if c ∈ punctuation then .ok (⟨.punct, c.toString⟩, 1)
  else if c = '<' then
    let n := (cs.takeWhile (· != '>')).length
    if n = cs.length then .error .openIri
    else .ok (⟨.name, String.ofList ((c :: cs).take (n + 2))⟩, n + 2)
  else if c = '"' then
    let n := (cs.takeWhile (· != '"')).length
    if n = cs.length then .error .openString
    else .ok (⟨.string, String.ofList (cs.take n)⟩, n + 2)
  else
    let word := (c :: cs).takeWhile fun c => !endsWord c
    .ok (⟨if isNumeric word then .number else .name, String.ofList word⟩, word.length)

/-- The tokens of a text after passing over a number of characters; the last is the end. -/
def tokensFrom : (pass : Nat) → List Char → Except Fault (List Token)
  | _, [] => .ok [⟨.done, ""⟩]
  | n + 1, _ :: cs => tokensFrom n cs
  | 0, c :: cs =>
    if isBlank c then tokensFrom 0 cs
    else
      match tokenAt c cs with
      | .error fault => .error fault
      | .ok (token, n) => (tokensFrom (n - 1) cs).map (token :: ·)

/-- How names are read. -/
structure Scope where
  prefixes : Prefixes
  defaultNamespace : String

def Scope.resolve (s : Scope) (name : String) : Except Fault String :=
  if name.toList.head? = some '<' || name.toList.contains ':' then
    match s.prefixes.expand name with
    | .ok iri => .ok iri
    | .error _ => .error (.unresolved name)
  else .ok (s.defaultNamespace ++ name)

/-- A step of reading uses up tokens in front. -/
abbrev Step := StateT (List Token) (Except Fault)

namespace Step

def current : Step Token := return (← get).headD ⟨.done, ""⟩

/-- Goes on to the next token, but never past the end. -/
def advance : Step Unit := modify fun
  | t :: more => if t.kind = .done then t :: more else more
  | [] => []

def atPunct (p : String) : Step Bool := do
  let t ← current
  return t.kind == .punct && t.text == p

/-- Keywords may be written in any case of letters. -/
def atKeyword (k : String) : Step Bool := do
  let t ← current
  return t.kind == .name && String.ofList (t.text.toList.map Char.toLower) == k

def close (p : String) : Step Unit := do
  if ← atPunct p then advance else throw (.noClosing p)

def resolve (s : Scope) (name : String) : Step String := liftM (s.resolve name)

/-- A number with a point or an exponent mark is a double. -/
def numberTerm (text : String) : Term :=
  .typed text (if text.toList.any fun c => c == '.' || c == 'e' || c == 'E' then
    Vocabulary.xsdDouble else Vocabulary.xsdInteger)

def individual (s : Scope) : Step Term := do
  let t ← current
  match t.kind with
  | .string => advance; return .string t.text
  | .number => advance; return numberTerm t.text
  | .name =>
    advance
    if t.text = "true" || t.text = "false" then return .boolean (t.text == "true")
    else return .iri (← resolve s t.text)
  | _ => throw (.noIndividual t.text)

/-- Individuals, each after a comma. -/
def individuals (s : Scope) : (fuel : Nat) → Step (List Term)
  | 0 => return []
  | n + 1 => do
    if ← atPunct "," then
      advance
      let t ← individual s
      return t :: (← individuals s n)
    else return []

mutual

def disjunction (s : Scope) : (fuel : Nat) → Step ClassExpr
  | 0 => throw .tooDeep
  | n + 1 => do
    let first ← conjunction s n
    match ← moreDisjuncts s n with
    | [] => return first
    | more => return .union first more

def moreDisjuncts (s : Scope) : (fuel : Nat) → Step (List ClassExpr)
  | 0 => throw .tooDeep
  | n + 1 => do
    if ← atKeyword "or" then
      advance
      let e ← conjunction s n
      return e :: (← moreDisjuncts s n)
    else return []

def conjunction (s : Scope) : (fuel : Nat) → Step ClassExpr
  | 0 => throw .tooDeep
  | n + 1 => do
    let first ← primary s n
    match ← moreConjuncts s n with
    | [] => return first
    | more => return .inter first more

def moreConjuncts (s : Scope) : (fuel : Nat) → Step (List ClassExpr)
  | 0 => throw .tooDeep
  | n + 1 => do
    if (← atKeyword "and") || (← atKeyword "that") then
      advance
      let e ← primary s n
      return e :: (← moreConjuncts s n)
    else return []

def primary (s : Scope) : (fuel : Nat) → Step ClassExpr
  | 0 => throw .tooDeep
  | n + 1 => do
    if ← atKeyword "not" then
      advance
      return .complement (← primary s n)
    else if ← atPunct "(" then
      advance
      let e ← disjunction s n
      close ")"
      return e
    else if ← atPunct "\x7b" then
      advance
      let first ← individual s
      let more ← individuals s (← get).length
      close "\x7d"
      return .oneOf (first :: more)
    else
      let t ← current
      if t.kind ≠ .name then throw (.noClassName t.text)
      advance
      let name ← resolve s t.text
      if ← atKeyword "some" then
        advance
        return .some name (← primary s n)
      else if ← atKeyword "value" then
        advance
        return .value name (← individual s)
      else return .named name

end

/-- An expression that uses up all tokens. No four nested calls use less than one token. -/
def whole (s : Scope) : Step ClassExpr := do
  let e ← disjunction s (4 * (← get).length + 4)
  let t ← current
  if t.kind ≠ .done then throw (.unexpected t.text)
  return e

end Step

def ClassExpr.read (s : Scope) (source : String) : Except Fault ClassExpr := do
  let ts ← tokensFrom 0 source.toList
  (Step.whole s).run' ts

/-- Reads a class expression; a fault is reported with the whole text. -/
def ClassExpr.parse (s : Scope) (source : String) : Checked ClassExpr :=
  match ClassExpr.read s source with
  | .ok e => .ok e
  | .error fault => .error (.runtime (fault.message source))

end Semlift.Ontology
