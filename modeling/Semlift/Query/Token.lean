import Semlift.Text.Byte

/-!
The words of a query, each with the place in the text where it begins.
-/

namespace Semlift.Query

open Semlift.Text

inductive TokenKind where
  /-- A reference, without its brackets. -/
  | iri
  | prefixed
  /-- A variable, without its mark. -/
  | var
  /-- A blank node, without the underscore and colon. -/
  | blank
  /-- The content of a quoted text. -/
  | string
  | integer
  | decimal
  | double
  | word
  | punct
  | done
  deriving DecidableEq, Repr

structure Token where
  kind : TokenKind
  text : String
  offset : Nat
  deriving DecidableEq, Repr

/-- What can be wrong with a query. -/
inductive Fault where
  | emptyVariable
  | openString
  | unexpectedCharacter (c : Char)
  | expectedPunct (wanted found : String)
  | expectedKeyword (wanted found : String)
  | noPrefixName
  | noNamespace
  | noProjection
  | noOrderVariable
  | noOrderKeys
  | afterQuery (found : String)
  | noCount
  | openGroup
  | unresolved (name : String)
  | noIri (found : String)
  | unexpectedInPattern (found : String)
  | noLanguage
  | noLiteral (found : String)
  | unknownFunction (name : String)
  | tooDeep
  deriving DecidableEq, Repr

def Fault.message : Fault → String
  | .emptyVariable => "empty variable name"
  | .openString => "unterminated string"
  | .unexpectedCharacter c => "unexpected character '" ++ c.toString ++ "'"
  | .expectedPunct wanted found => "expected '" ++ wanted ++ "' but found '" ++ found ++ "'"
  | .expectedKeyword wanted found => "expected " ++ wanted ++ " but found '" ++ found ++ "'"
  | .noPrefixName => "expected a prefix name"
  | .noNamespace => "expected a namespace IRI"
  | .noProjection => "SELECT needs '*' or at least one variable"
  | .noOrderVariable => "ORDER BY expects a variable"
  | .noOrderKeys => "ORDER BY without keys"
  | .afterQuery found => "unexpected '" ++ found ++ "' after query"
  | .noCount => "expected a non-negative integer"
  | .openGroup => "unterminated group pattern"
  | .unresolved name => "cannot resolve name '" ++ name ++ "'"
  | .noIri found => "expected an IRI but found '" ++ found ++ "'"
  | .unexpectedInPattern found => "unexpected '" ++ found ++ "' in triple pattern"
  | .noLanguage => "expected a language tag"
  | .noLiteral found => "expected a literal but found '" ++ found ++ "'"
  | .unknownFunction name => "unsupported function '" ++ name ++ "'"
  | .tooDeep => "nesting too deep"

def isWordChar (c : Char) : Bool := c.isAlphanum || c == '_'

/-- A token at the beginning of a text: its kind, its text and how many characters it takes. A fault
comes with the distance from the beginning at which it shows. -/
abbrev Found := Except (Fault × Nat) (TokenKind × String × Nat)

/-- The reference that a left angle bracket opens. It holds no blank and no bracket and does not
begin with an equals sign; a bracket that opens none is an operator. -/
def iriLength? (cs : List Char) : Option Nat :=
  let body := cs.takeWhile fun c => c != '>' && !isBlank c && c != '<'
  if body.isEmpty || body.head? = some '=' then none
  else if (cs.drop body.length).head? = some '>' then some body.length
  else none

/-- The content of a quoted text and how many characters it takes with its closing mark. -/
def stringContent? (mark : Char) : List Char → Option (List Char × Nat)
  | [] => none
  | c :: cs =>
    if c = mark then some ([], 1)
    else
      match c, cs with
      | '\\', e :: rest =>
        let x := if e = 'n' then '\n' else if e = 't' then '\t' else e
        (stringContent? mark rest).map fun (s, n) => (x :: s, n + 2)
      | c, cs => (stringContent? mark cs).map fun (s, n) => (c :: s, n + 1)

/-- A number without sign. -/
def number (cs : List Char) : TokenKind × Nat :=
  let digits (r : List Char) : Nat := (r.takeWhile Char.isDigit).length
  let whole := digits cs
  let fraction := match cs.drop whole with
    | '.' :: r => if digits r = 0 then 0 else digits r + 1
    | _ => 0
  let exponent := match cs.drop (whole + fraction) with
    | c :: r =>
      if c = 'e' || c = 'E' then
        match r with
        | s :: r' => if s = '+' || s = '-' then digits r' + 2 else digits r + 1
        | [] => 1
      else 0
    | [] => 0
  (if exponent ≠ 0 then .double else if fraction ≠ 0 then .decimal else .integer,
    whole + fraction + exponent)

def isLocalChar (c : Char) : Bool := isWordChar c || c == '.' || c == ':' || c == '-'

/-- The length of a local name; points at its end are not part of it. -/
def localLength (cs : List Char) : Nat :=
  ((cs.takeWhile isLocalChar).reverse.dropWhile (· == '.')).length

def longOperators : List String := ["&&", "||", "!=", "<=", ">=", "^^"]

def shortOperators : List Char := "\x7b\x7d().;,*=<>!+-/[]@".toList

def operator (c : Char) (cs : List Char) : Found :=
  match longOperators.find? fun op => op.toList = (c :: cs).take 2 with
  | some op => .ok (.punct, op, 2)
  | none =>
    if c ∈ shortOperators then .ok (.punct, c.toString, 1)
    else .error (.unexpectedCharacter c, 0)

/-- The token at the beginning of a text that does not begin with a blank. -/
def tokenAt (c : Char) (cs : List Char) : Found :=
  let word (r : List Char) : Nat := (r.takeWhile isWordChar).length
  match if c = '<' then iriLength? cs else none with
  | some n => .ok (.iri, String.ofList (cs.take n), n + 2)
  | none =>
    if c = '?' || c = '$' then
      if word cs = 0 then .error (.emptyVariable, 1)
      else .ok (.var, String.ofList (cs.take (word cs)), word cs + 1)
    else if c = '_' && cs.head? = some ':' then
      let n := word (cs.drop 1)
      .ok (.blank, String.ofList ((cs.drop 1).take n), n + 2)
    else if c = '"' || c = '\'' then
      match stringContent? c cs with
      | some (s, n) => .ok (.string, String.ofList s, n + 1)
      | none => .error (.openString, cs.length + 1)
    else if c.isDigit then
      let (kind, n) := number (c :: cs)
      .ok (kind, String.ofList ((c :: cs).take n), n)
    else if isWordChar c || c = ':' then
      let n := word (c :: cs)
      match (c :: cs).drop n with
      | ':' :: r =>
        let length := n + 1 + localLength r
        .ok (.prefixed, String.ofList ((c :: cs).take length), length)
      | _ => .ok (.word, String.ofList ((c :: cs).take n), n)
    else operator c cs

/-- The tokens of a text from an offset on, after passing over a number of characters; the last
token is the end. A comment goes from a hash to the end of its line. -/
def tokensFrom : (pass offset : Nat) → List Char → Except (Nat × Fault) (List Token)
  | _, offset, [] => .ok [⟨.done, "", offset⟩]
  | n + 1, offset, _ :: cs => tokensFrom n (offset + 1) cs
  | 0, offset, c :: cs =>
    if c = '#' then tokensFrom (cs.takeWhile (· != '\n')).length (offset + 1) cs
    else if isBlank c then tokensFrom 0 (offset + 1) cs
    else
      match tokenAt c cs with
      | .error (fault, n) => .error (offset + n, fault)
      | .ok (kind, text, n) =>
        (tokensFrom (n - 1) (offset + 1) cs).map (⟨kind, text, offset⟩ :: ·)

def tokens (text : String) : Except (Nat × Fault) (List Token) := tokensFrom 0 0 text.toList

end Semlift.Query
