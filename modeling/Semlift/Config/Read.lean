import Semlift.Config.Node
import Semlift.Config.Settings
import Semlift.Files.Tree

/-!
Settings from a configuration document. Fields that are absent keep their defaults; the first thing
that is wrong, in the order in which the fields are read, is reported with its line.
-/

namespace Semlift.Config

open Semlift.Knowledge

/-- What is wrong at a node. -/
inductive Problem where
  | malformed (message : String)
  | rootNotMapping
  | unknownField (key context : String)
  | notMapping (name : String)
  | notScalar (name : String)
  | wrongType (name text : String)
  | badCommand
  | unknownName (u : View.Unknown)
  deriving DecidableEq, Repr

def Problem.message : Problem → String
  | .malformed m => m
  | .rootNotMapping => "top level must be a mapping"
  | .unknownField k c => "unknown field '" ++ k ++ "' in " ++ c
  | .notMapping n => "'" ++ n ++ "' must be a mapping"
  | .notScalar n => "'" ++ n ++ "' must be a scalar"
  | .wrongType n t => "'" ++ n ++ "' has the wrong type: '" ++ t ++ "'"
  | .badCommand => "reasoner.command must be a string or a list"
  | .unknownName u => u.message

inductive Fault where
  | at (line : Int) (problem : Problem)
  /-- A key is a list or a mapping. -/
  | badKey
  /-- There is no such file. -/
  | missing (path : String)
  deriving DecidableEq, Repr

def place (source : String) (line : Int) : String :=
  if line < 0 then source else source ++ ":" ++ Number.intText (line + 1)

/-- The message of a fault in a document. -/
def Fault.message (source : String) : Fault → String
  | .at line problem => place source line ++ ": " ++ problem.message
  | .badKey => "bad conversion"
  | .missing path => "cannot open " ++ path

/-- A result of reading, or the first fault. -/
abbrev Found (α : Type) := Except Fault α

def keyText (n : Node) : Found String :=
  match n.keyText? with
  | some t => .ok t
  | none => .error .badKey

/-- Every key must be one of those allowed. -/
def checkKeys (allowed : List String) (context : String) (entries : List (Node × Node)) :
    Found Unit :=
  entries.forM fun (k, _) => do
    let key ← keyText k
    if !allowed.contains key then throw (.at k.line (.unknownField key context))

def entriesOf (name : String) : Node → Found (List (Node × Node))
  | .mapping _ entries => .ok entries
  | n => .error (.at n.line (.notMapping name))

def scalar (name : String) : Node → Found String
  | .scalar _ text => .ok text
  | n => .error (.at n.line (.notScalar name))

/-- A scalar with a value of a type. -/
def typed {α : Type} (read? : String → Option α) (name : String) (n : Node) : Found α := do
  let text ← scalar name n
  match read? text with
  | some a => return a
  | none => throw (.at n.line (.wrongType name text))

/-- Changes a result by the entry of a key, if there is one. -/
def withEntry {σ : Type} (key : String) (entries : List (Node × Node))
    (change : Node → σ → Found σ) (s : σ) : Found σ :=
  match Node.lookup? key entries with
  | some n => change n s
  | none => .ok s

def path (base name : String) (n : Node) : Found String :=
  return Files.joinPath base (← scalar name n)

def readPrefixes (n : Node) (s : Settings) : Found Settings := do
  let es ← entriesOf "prefixes" n
  checkKeys ["domain", "prog", "run", "smol"] "prefixes" es
  let s ← withEntry "domain" es (fun n s =>
    return { s with domain := ← scalar "prefixes.domain" n }) s
  let s ← withEntry "prog" es (fun n s =>
    return { s with program := ← scalar "prefixes.prog" n }) s
  let s ← withEntry "run" es (fun n s => return { s with run := ← scalar "prefixes.run" n }) s
  withEntry "smol" es (fun n s => return { s with language := ← scalar "prefixes.smol" n }) s

def readExtra (n : Node) (s : Settings) : Found Settings := do
  let es ← entriesOf "extra_prefixes" n
  let extra ← es.mapM fun (k, v) => do
    let name ← keyText k
    return (name, ← scalar ("extra_prefixes." ++ name) v)
  return { s with extra := s.extra ++ extra }

def readMode (n : Node) (s : Settings) : Found Settings := do
  match s.view.setMode (← scalar "reasoner.mode" n) with
  | .ok v => return { s with view := v }
  | .error u => throw (.at n.line (.unknownName u))

def readCommand (n : Node) (s : Settings) : Found Settings :=
  match n with
  | .scalar _ text => .ok { s with reasoner := [text] }
  | .sequence _ items => do
    return { s with reasoner := s.reasoner ++ (← items.mapM (scalar "reasoner.command")) }
  | n => .error (.at n.line .badCommand)

def readReasoner (n : Node) (s : Settings) : Found Settings := do
  let es ← entriesOf "reasoner" n
  checkKeys ["mode", "command"] "reasoner" es
  withEntry "command" es readCommand (← withEntry "mode" es readMode s)

/-- Changes the view by switches under their names. -/
def readSwitches (name : String) (set : View → String → Bool → Except View.Unknown View) (n : Node)
    (s : Settings) : Found Settings := do
  let es ← entriesOf name n
  es.foldlM (fun s (k, v) => do
    let key ← keyText k
    let on ← typed truth? (name ++ "." ++ key) v
    match set s.view key on with
    | .ok view => return { s with view := view }
    | .error u => throw (.at k.line (.unknownName u))) s

def fieldNames : List String :=
  ["verbose", "outdir", "background", "prefixes", "extra_prefixes", "reasoner", "sources", "guards",
    "virtualization", "gc_interval"]

def readRoot (base : String) (es : List (Node × Node)) (s : Settings) : Found Settings := do
  checkKeys fieldNames "top level" es
  let s ← withEntry "verbose" es (fun n s =>
    return { s with verbose := ← typed truth? "verbose" n }) s
  let s ← withEntry "outdir" es (fun n s => return { s with outdir := ← path base "outdir" n }) s
  let s ← withEntry "background" es (fun n s =>
    return { s with background := ← path base "background" n }) s
  let s ← withEntry "prefixes" es readPrefixes s
  let s ← withEntry "extra_prefixes" es readExtra s
  let s ← withEntry "reasoner" es readReasoner s
  let s ← withEntry "sources" es (readSwitches "sources" View.setSource) s
  let s ← withEntry "guards" es (readSwitches "guards" View.setGuard) s
  let s ← withEntry "virtualization" es (readSwitches "virtualization" View.setVirtualization) s
  withEntry "gc_interval" es (fun n s =>
    return { s with gcInterval := ← typed word? "gc_interval" n }) s

/-- The settings of a document. Relative paths in it start at a directory; the time of the run is
part of the default namespace of its objects. -/
def read (base stamp : String) : Document → Found Settings
  | .malformed line message => .error (.at line (.malformed message))
  | .empty | .tree (.null _) => .ok (.default stamp)
  | .tree (.mapping _ es) => readRoot base es (.default stamp)
  | .tree n => .error (.at n.line .rootNotMapping)

end Semlift.Config
