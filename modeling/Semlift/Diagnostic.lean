import Semlift.Number.Layout
import Semlift.Text.Byte

/-!
What the program reports: a message with a severity, the statement it is about, and notes. A report
is a list of diagnostics in order of their making, with a count of errors and warnings at its end.
-/

namespace Semlift

/-- How grave a message is. Host errors come from files, other programs and malformed documents. -/
inductive Severity where
  | error
  | runtime
  | host
  | warning
  | note
  deriving DecidableEq, Repr

def Severity.label : Severity → String
  | .error | .host => "error:"
  | .runtime => "runtime error:"
  | .warning => "warning:"
  | .note => "note:"

def Severity.isError : Severity → Bool
  | .error | .runtime | .host => true
  | .warning | .note => false

/-- A statement as a place in the program; a negative line is an unknown one. -/
structure Span where
  line : Int
  text : String
  deriving DecidableEq, Repr

def Span.render (s : Span) : String :=
  if s.line < 0 then s.text else "line " ++ Number.intText s.line ++ ": " ++ s.text

structure Message where
  severity : Severity
  span : Option Span
  text : String
  deriving DecidableEq, Repr

/-- Without a span the message speaks for the whole program. -/
def Message.render (m : Message) : String :=
  (m.span.map Span.render).getD "smol" ++ ": " ++ m.severity.label ++ " " ++ m.text

structure Diagnostic where
  primary : Message
  notes : List Message
  deriving DecidableEq, Repr

namespace Diagnostic

def ofText (severity : Severity) (text : String) : Diagnostic := ⟨⟨severity, none, text⟩, []⟩

def error : String → Diagnostic := ofText .error
def runtime : String → Diagnostic := ofText .runtime
def host : String → Diagnostic := ofText .host
def warning : String → Diagnostic := ofText .warning

def message (d : Diagnostic) : String := d.primary.text

def withNote (d : Diagnostic) (text : String) : Diagnostic :=
  { d with notes := d.notes ++ [⟨.note, none, text⟩] }

/-- Names the statement under execution, unless a statement is named already. A host error met
there becomes a runtime error and keeps a note of where it came from. -/
def atStatement (d : Diagnostic) (span : Span) : Diagnostic :=
  let d := { d with primary.span := d.primary.span <|> some span }
  if d.primary.severity = .host then
    { d.withNote "raised by an external service" with primary.severity := .runtime }
  else d

def render (d : Diagnostic) : String :=
  Text.join "\n" ((d.primary :: d.notes).map Message.render)

end Diagnostic

/-- The diagnostics of one activity, in order. -/
abbrev Report := List Diagnostic

namespace Report

def hasErrors (r : Report) : Bool := r.any (·.primary.severity.isError)

def errorCount (r : Report) : Nat := (r.filter (·.primary.severity.isError)).length

def warningCount (r : Report) : Nat := (r.filter (·.primary.severity == .warning)).length

/-- A count with its noun, and nothing for none. -/
def tally (n : Nat) (noun : String) : List String :=
  if n = 0 then [] else [Number.natText n ++ " " ++ noun ++ if n = 1 then "" else "s"]

def summary (r : Report) : String :=
  match tally r.warningCount "warning" ++ tally r.errorCount "error" with
  | [] => ""
  | counts => Text.join " and " counts ++ " generated.\n"

def render (r : Report) : String :=
  String.join (r.map (·.render ++ "\n")) ++ r.summary

end Report

/-- Why an activity ends without an answer: it says so in a diagnostic, it finds the program state
broken, or a number written in a query exceeds 64 bits. -/
inductive Failure where
  | reported (d : Diagnostic)
  | broken (place detail : String)
  | numberTooLarge
  deriving DecidableEq, Repr

def Failure.message : Failure → String
  | .reported d => d.message
  | .broken place detail =>
    "Internal error in " ++ place ++ ": " ++ detail ++ "\nThis is a bug in smol."
  | .numberTooLarge => "stoull"

/-- An answer, or the diagnostic that stands in its place. -/
abbrev Checked (α : Type) := Except Diagnostic α

end Semlift
