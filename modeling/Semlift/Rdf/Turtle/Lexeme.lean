import Semlift.Rdf.Term
import Semlift.Text.Byte

/-!
The smallest pieces of a Turtle document: blanks and comments, names, IRI references, quoted texts
and numbers. A reader of a piece takes the text that is left and gives the piece with what follows
it; a fault comes with the text that was left when it was found.
-/

namespace Semlift.Rdf.Turtle

open Semlift.Text

/-- What can be wrong with a document. -/
inductive Fault where
  | expectedAtEnd (wanted : Char)
  | expected (wanted found : Char)
  | unknownDirective (name : String)
  | malformedPrefix
  | noIriReference
  | blankInIri
  | openIri
  | noIriAtEnd
  | unexpected (found : Char)
  | noColon
  | undeclared (name : String)
  | emptyLabel
  | openCollection
  | openString
  | newlineInString
  | badEscape (escaped : Char)
  | malformedNumber
  | malformedExponent
  | afterList (found : Char)
  | tooDeep
  deriving DecidableEq, Repr

def Fault.message : Fault → String
  | .expectedAtEnd wanted => "expected '" ++ wanted.toString ++ "' but reached end of input"
  | .expected wanted found =>
    "expected '" ++ wanted.toString ++ "' but found '" ++ found.toString ++ "'"
  | .unknownDirective name => "unknown directive '@" ++ name ++ "'"
  | .malformedPrefix => "malformed prefix name"
  | .noIriReference => "expected '<'"
  | .blankInIri => "whitespace inside IRI"
  | .openIri => "unterminated IRI"
  | .noIriAtEnd => "expected an IRI but reached end of input"
  | .unexpected found => "unexpected '" ++ found.toString ++ "'"
  | .noColon => "expected ':' in prefixed name"
  | .undeclared name => "undeclared prefix '" ++ name ++ "'"
  | .emptyLabel => "empty blank node label"
  | .openCollection => "unterminated collection"
  | .openString => "unterminated string literal"
  | .newlineInString => "newline in string literal"
  | .badEscape escaped => "unsupported escape '\\" ++ escaped.toString ++ "'"
  | .malformedNumber => "malformed number"
  | .malformedExponent => "malformed exponent"
  | .afterList found => "unexpected '" ++ found.toString ++ "' after predicate-object list"
  | .tooDeep => "nesting too deep"

/-- A reader of one piece of text. -/
abbrev Lexer (α : Type) := List Char → Except (Fault × List Char) (α × List Char)

def isNameStart (c : Char) : Bool := c.isAlpha || c == '_' || isHigh c

def isNameChar (c : Char) : Bool := isNameStart c || c.isDigit || c == '-' || c == '.'

/-- The character at a place of the text that is left, the NUL character past its end. -/
def at' (cs : List Char) (n : Nat) : Char := cs.getD n '\x00'

/-- A text without the gaps and comments at its beginning; at first a comment may be going on. -/
def skipFrom (isGap : Char → Bool) : (comment : Bool) → List Char → List Char
  | _, [] => []
  | true, c :: cs => skipFrom isGap (c != '\n') cs
  | false, c :: cs =>
    if c == '#' then skipFrom isGap true cs
    else if isGap c then skipFrom isGap false cs
    else c :: cs

def skip (cs : List Char) : List Char := skipFrom isBlank false cs

/-- Semicolons are skipped together with the blanks between them. -/
def skipSemicolons (cs : List Char) : List Char :=
  skipFrom (fun c => isBlank c || c == ';') false cs

/-- What follows a keyword, in any case of letters, that a blank ends. -/
def afterKeyword? (keyword : String) (cs : List Char) : Option (List Char) :=
  let n := keyword.length
  if (cs.take n).map Char.toLower = keyword.toList.map Char.toLower && isBlank (at' cs n) then
    some (cs.drop n)
  else none

def iriBody : Lexer (List Char)
  | [] => .error (.openIri, [])
  | c :: cs =>
    if c = '>' then .ok ([], cs)
    else if c = '\n' || c = ' ' then .error (.blankInIri, c :: cs)
    else (iriBody cs).map fun (iri, rest) => (c :: iri, rest)

/-- A reference between angle brackets, as it is written. -/
def iriReference : Lexer String
  | '<' :: cs => (iriBody cs).map fun (iri, rest) => (String.ofList iri, rest)
  | cs => .error (.noIriReference, cs)

/-- The name in front of a colon; the colon is left. -/
def prefixName (bad : Char → Fault) (missing : Fault) : Lexer String := fun cs =>
  let name := cs.takeWhile isNameChar
  match cs.dropWhile isNameChar with
  | [] => .error (missing, [])
  | c :: rest => if c = ':' then .ok (String.ofList name, c :: rest) else .error (bad c, c :: rest)

/-- The longest beginning that may belong to a local name, without its escapes. -/
def localChars : List Char → List Char × List Char
  | [] => ([], [])
  | c :: cs =>
    match c, cs with
    | '\\', e :: rest => let (name, rest) := localChars rest; (e :: name, rest)
    | c, cs =>
      if c == '%' || c == ':' || isNameChar c then
        let (name, rest) := localChars cs
        (c :: name, rest)
      else ([], c :: cs)

/-- How many points end a text. -/
def trailingPoints (cs : List Char) : Nat := (cs.reverse.takeWhile (· == '.')).length

/-- The part of a prefixed name after the colon. Points at its end are not part of it: as many
characters as there are such points are given back, for the first of them ends the statement. -/
def localName (cs : List Char) : String × List Char :=
  let (name, rest) := localChars cs
  let points := trailingPoints name
  (String.ofList (name.take (name.length - points)),
    cs.drop (cs.length - rest.length - points))

/-- The label of a blank node; points at its end are not part of it. -/
def blankLabel : Lexer String := fun cs =>
  let run := cs.takeWhile isNameChar
  let label := run.take (run.length - trailingPoints run)
  let rest := cs.drop label.length
  if label.isEmpty then .error (.emptyLabel, rest) else .ok (String.ofList label, rest)

def unescape? : Char → Option Char
  | 'n' => some '\n'
  | 't' => some '\t'
  | 'r' => some '\r'
  | '"' => some '"'
  | '\'' => some '\''
  | '\\' => some '\\'
  | _ => none

/-- The inside of a quoted text and its closing quote; three quotes close a long one. -/
def stringBody (mark : Char) (long : Bool) : Lexer (List Char)
  | [] => .error (.openString, [])
  | c :: cs =>
    if long && c == mark && at' cs 0 == mark && at' cs 1 == mark then .ok ([], cs.drop 2)
    else if !long && c == mark then .ok ([], cs)
    else if !long && c == '\n' then .error (.newlineInString, c :: cs)
    else
      match c, cs with
      | '\\', [] => .error (.badEscape '\x00', [])
      | '\\', e :: rest =>
        match unescape? e with
        | none => .error (.badEscape e, rest)
        | some x => (stringBody mark long rest).map fun (s, rest) => (x :: s, rest)
      | c, cs => (stringBody mark long cs).map fun (s, rest) => (c :: s, rest)

/-- A quoted text with its quotes, single or double, one or three on each side. -/
def quoted : Lexer String := fun cs =>
  let mark := at' cs 0
  let long := at' cs 1 == mark && at' cs 2 == mark
  (stringBody mark long (cs.drop (if long then 3 else 1))).map fun (s, rest) =>
    (String.ofList s, rest)

def isSign (c : Char) : Bool := c == '+' || c == '-'

/-- A number with its sign: digits are an integer, a fraction makes a decimal, an exponent a
double. -/
def numeral : Lexer Term := fun cs =>
  let afterSign := if isSign (at' cs 0) then cs.drop 1 else cs
  let afterWhole := afterSign.dropWhile Char.isDigit
  let fractional := at' afterWhole 0 == '.' && (at' afterWhole 1).isDigit
  let afterFraction :=
    if fractional then (afterWhole.drop 1).dropWhile Char.isDigit else afterWhole
  let written (rest : List Char) : String := String.ofList (cs.take (cs.length - rest.length))
  if !fractional && afterWhole.length == afterSign.length then
    .error (.malformedNumber, afterWhole)
  else if at' afterFraction 0 == 'e' || at' afterFraction 0 == 'E' then
    let afterMark := afterFraction.drop 1
    let digits := if isSign (at' afterMark 0) then afterMark.drop 1 else afterMark
    let rest := digits.dropWhile Char.isDigit
    if rest.length == digits.length then .error (.malformedExponent, rest)
    else .ok (.typed (written rest) Vocabulary.xsdDouble, rest)
  else
    .ok (.typed (written afterFraction)
      (if fractional then Vocabulary.xsdDecimal else Vocabulary.xsdInteger), afterFraction)

/-- A truth value whose word ends here. -/
def truth? (cs : List Char) : Option (Term × List Char) :=
  let ends (rest : List Char) : Bool := !isNameChar (at' rest 0) && at' rest 0 != ':'
  match afterPrefix? "true".toList cs with
  | some rest => if ends rest then some (.boolean true, rest) else none
  | none =>
    match afterPrefix? "false".toList cs with
    | some rest => if ends rest then some (.boolean false, rest) else none
    | none => none

end Semlift.Rdf.Turtle
