import Semlift.Diagnostic
import Semlift.Rdf.Term
import Semlift.Text.Byte

/-!
The answers of a reasoner that runs as another program: one line for a consistency check, one term a
line for the members of a class.
-/

namespace Semlift.Ontology

open Semlift.Rdf Semlift.Text

/-- The lines of a text without the blanks at their ends and without empty ones. -/
def answerLines (text : String) : List (List Char) :=
  ((splitOn '\n' text.toList).map trim).filter (!·.isEmpty)

/-- A backslash before `n`, `t` and `r` makes a control character, before any other nothing. -/
def unescape : List Char → List Char
  | [] => []
  | c :: cs =>
    match c, cs with
    | '\\', e :: rest =>
      (if e = 'n' then '\n' else if e = 't' then '\t' else if e = 'r' then '\r' else e) ::
        unescape rest
    | c, cs => c :: unescape cs

/-- The text up to a closing quote that no backslash escapes, and what follows it. -/
def splitQuoted : List Char → Option (List Char × List Char)
  | [] => none
  | c :: cs =>
    if c = '"' then some ([], cs)
    else
      match c, cs with
      | '\\', e :: rest => (splitQuoted rest).map fun (s, r) => ('\\' :: e :: s, r)
      | c, cs => (splitQuoted cs).map fun (s, r) => (c :: s, r)

def malformed (line : List Char) : Diagnostic :=
  .host ("malformed literal in reasoner output: " ++ String.ofList line)

/-- A literal without its opening quote. -/
def answerLiteral (line inside : List Char) : Checked Term :=
  match splitQuoted inside with
  | none => .error (malformed line)
  | some (quoted, rest) =>
    let lexical := String.ofList (unescape quoted)
    match rest with
    | [] => .ok (.string lexical)
    | '@' :: tag => .ok (.langString lexical (String.ofList tag))
    | '^' :: '^' :: '<' :: datatype =>
      if datatype.getLast? = some '>' then .ok (.typed lexical (String.ofList datatype.dropLast))
      else .error (malformed line)
    | _ => .error (malformed line)

/-- The term that a line of an answer spells. -/
def answerTerm (line : List Char) : Checked Term :=
  let line := trim line
  match line with
  | [] => .error (.host "empty reasoner output line")
  | '<' :: iri =>
    if iri.getLast? = some '>' then .ok (.iri (String.ofList iri.dropLast))
    else .error (.host ("unrecognized reasoner output line: " ++ String.ofList line))
  | '_' :: ':' :: label => .ok (.blank (String.ofList label))
  | '"' :: inside => answerLiteral line inside
  | _ => .error (.host ("unrecognized reasoner output line: " ++ String.ofList line))

/-- The last line of an answer to a consistency check is its verdict. -/
def verdict (output : String) : Checked Bool :=
  match (answerLines output).getLast? with
  | some ['t', 'r', 'u', 'e'] => .ok true
  | some ['f', 'a', 'l', 's', 'e'] => .ok false
  | _ => .error (.runtime ("external reasoner answered '" ++
      String.ofList (trim output.toList) ++ "' to a consistency check"))

/-- The terms of an answer that lists members; a bad line fails the whole. -/
def listed (output : String) : Checked (List Term) :=
  (answerLines output).mapM fun line =>
    match answerTerm line with
    | .ok t => .ok t
    | .error d => .error (.runtime d.message)

end Semlift.Ontology
