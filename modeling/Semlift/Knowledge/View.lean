import Semlift.Diagnostic
import Semlift.Value

/-!
Which sources a graph of knowledge is made of, how each of them is asked, and how much reasoning is
done on it. The settings are changed by their names.
-/

namespace Semlift.Knowledge

inductive SourceKind where
  | heap
  | classTable
  | coreVocabulary
  | background
  deriving DecidableEq, Repr

def SourceKind.all : List SourceKind := [.heap, .classTable, .coreVocabulary, .background]

def SourceKind.text : SourceKind → String
  | .heap => "heap"
  | .classTable => "staticTable"
  | .coreVocabulary => "coreVocabulary"
  | .background => "externalOntology"

/-- A source by its name; the core vocabulary has two. -/
def SourceKind.named? (name : String) : Option SourceKind :=
  if name = "vocabularyFile" then some .coreVocabulary
  else SourceKind.all.find? (·.text == name)

/-- The sources that are computed from the program and its state. -/
inductive LiftedKind where
  | heap
  | classTable
  deriving DecidableEq, Repr

def LiftedKind.named? (name : String) : Option LiftedKind :=
  if name = "heap" then some .heap
  else if name = "staticTable" then some .classTable
  else none

inductive Mode where
  | off
  | rdfs
  | full
  deriving DecidableEq, Repr

def Mode.text : Mode → String
  | .off => "off"
  | .rdfs => "rdfs"
  | .full => "full"

/-- A mode by its name; full reasoning has two. -/
def Mode.named? (name : String) : Option Mode :=
  if name = "owl" then some .full else [Mode.off, .rdfs, .full].find? (·.text == name)

structure View where
  /-- Whether a source is part of the graph. -/
  enabled : SourceKind → Bool
  /-- Whether a lifted source leaves out early what cannot answer a pattern. -/
  guarded : LiftedKind → Bool
  /-- Whether a lifted source is asked directly, and not through a copy of all that it gives. -/
  direct : LiftedKind → Bool
  mode : Mode

namespace View

/-- Everything is on, but nothing is reasoned. -/
def default : View := ⟨fun _ => true, fun _ => true, fun _ => true, .off⟩

instance : Inhabited View := ⟨default⟩

/-- A function with another value at one argument. -/
def update {α : Type} [DecidableEq α] (f : α → Bool) (a : α) (b : Bool) : α → Bool :=
  fun x => if x = a then b else f x

/-- A setting or a value of it that has no such name. -/
inductive Unknown where
  | source (name : String)
  | guard (name : String)
  | virtualization (name : String)
  | mode (name : String)
  deriving DecidableEq, Repr

def Unknown.message : Unknown → String
  | .source n => "unknown source '" ++ n ++
      "' (expected heap, staticTable, coreVocabulary or externalOntology)"
  | .guard n => "unknown guard '" ++ n ++ "' (expected heap or staticTable)"
  | .virtualization n => "unknown virtualization key '" ++ n ++ "' (expected heap or staticTable)"
  | .mode n => "unknown reasoner mode '" ++ n ++ "' (expected off, rdfs or full)"

def Unknown.diagnostic (u : Unknown) : Diagnostic := .error u.message

def setSource (v : View) (name : String) (on : Bool) : Except Unknown View :=
  match SourceKind.named? name with
  | some k => .ok { v with enabled := update v.enabled k on }
  | none => .error (.source name)

def setGuard (v : View) (name : String) (on : Bool) : Except Unknown View :=
  match LiftedKind.named? name with
  | some k => .ok { v with guarded := update v.guarded k on }
  | none => .error (.guard name)

def setVirtualization (v : View) (name : String) (on : Bool) : Except Unknown View :=
  match LiftedKind.named? name with
  | some k => .ok { v with direct := update v.direct k on }
  | none => .error (.virtualization name)

def setMode (v : View) (name : String) : Except Unknown View :=
  match Mode.named? name with
  | some m => .ok { v with mode := m }
  | none => .error (.mode name)

def switch (name : String) (on : Bool) : String := " " ++ name ++ "=" ++ Value.boolText on

def liftedText (f : LiftedKind → Bool) : String :=
  switch "heap" (f .heap) ++ switch "staticTable" (f .classTable) ++ "\n"

/-- A listing of the settings. -/
def text (v : View) : String :=
  "sources:" ++ String.join (SourceKind.all.map fun k => switch k.text (v.enabled k)) ++ "\n" ++
    "guards:" ++ liftedText v.guarded ++ "virtualization:" ++ liftedText v.direct ++
    "reasoner: " ++ v.mode.text

end View

end Semlift.Knowledge
