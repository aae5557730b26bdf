import Semlift.Knowledge.Core
import Semlift.Knowledge.Reasoner
import Semlift.Knowledge.View
import Semlift.Lift.Source
import Semlift.Ontology.ClassParser
import Semlift.Query.Eval
import Semlift.Query.Parser
import Semlift.Rdf.Writer

/-!
The knowledge of a running program: the lifted state and class table, the core vocabulary and a
background ontology. Nothing but the files of reasoners is kept from one question to the next, so
without such files an answer depends on the state and the view alone.
-/

namespace Semlift.Knowledge

open Semlift.Rdf Semlift.Store Semlift.Lift Semlift.Files

structure Base where
  prefixes : Prefixes
  /-- Where the names of class expressions without a prefix lie. -/
  domain : String
  lifter : Lifter
  core : Graph
  background : Graph
  rdfs : Option Reasoner
  full : Option Reasoner
  /-- The files that reasoners find. -/
  files : Tree

inductive DumpFormat where
  | turtle
  | ntriples
  deriving DecidableEq, Repr

namespace Base

/-- A lifted source as a view asks it: pattern by pattern, or as a graph made of all its triples. -/
def lifted (v : View) (kind : LiftedKind) (source : Source) : Source :=
  if v.direct kind then source else source.snapshot.matching

def sourceOf (b : Base) (s : State) (v : View) : SourceKind → Source
  | .heap => lifted v .heap (b.lifter.stateSource s (v.guarded .heap))
  | .classTable => lifted v .classTable (b.lifter.tableSource (v.guarded .classTable))
  | .coreVocabulary => b.core.matching
  | .background => b.background.matching

/-- The sources that a view enables, joined. -/
def source (b : Base) (s : State) (v : View) : Source :=
  .union ((SourceKind.all.filter v.enabled).map (b.sourceOf s v))

def graph (b : Base) (s : State) (v : View) : Graph := (b.source s v).snapshot

/-- What queries are asked: with reasoning, the graph with all that its schema entails. -/
def queried (b : Base) (s : State) (v : View) : Source :=
  match v.mode with
  | .off => b.source s v
  | _ => (Ontology.closure (b.graph s v)).matching

def query (b : Base) (s : State) (v : View) (text : String) : Except Failure Query.Table :=
  match Query.parse text b.prefixes with
  | .error e => .error e.failure
  | .ok q => .ok (q.eval (b.queried s v))

def noReasoner (mode : Mode) : Diagnostic :=
  .runtime ("no reasoner configured for mode " ++ mode.text)

/-- The reasoner of a mode; there is none for the mode without reasoning. -/
def reasoner (b : Base) (mode : Mode) : Checked Reasoner :=
  let chosen := match mode with
    | .off => none
    | .rdfs => b.rdfs
    | .full => b.full
  match chosen with
  | some r => .ok r
  | none => .error (noReasoner mode)

def setReasoner (b : Base) (mode : Mode) (r : Option Reasoner) : Base :=
  match mode with
  | .off => b
  | .rdfs => { b with rdfs := r }
  | .full => { b with full := r }

/-- The members of a class expression. Without reasoning only explicit facts count. -/
def members (b : Base) (s : State) (v : View) (text : String) : Checked (List Term) := do
  let e ← Ontology.ClassExpr.parse ⟨b.prefixes, b.domain⟩ text
  let g := b.graph s v
  match v.mode with
  | .off => return e.members g
  | mode => (← b.reasoner mode).instances b.files g e

/-- Without reasoning every graph counts as consistent. -/
def isConsistent (b : Base) (s : State) (v : View) : Checked Bool :=
  match v.mode with
  | .off => .ok true
  | mode => do (← b.reasoner mode).isConsistent b.files (b.graph s v)

/-- The knowledge after a question for members, which may have changed the files. -/
def afterMembers (b : Base) (s : State) (v : View) (text : String) : Base :=
  match b.reasoner v.mode, Ontology.ClassExpr.parse ⟨b.prefixes, b.domain⟩ text with
  | .ok (.external x), .ok e => { b with files := (x.instances b.files (b.graph s v) e).2 }
  | _, _ => b

/-- The knowledge after a question for consistency. -/
def afterCheck (b : Base) (s : State) (v : View) : Base :=
  match b.reasoner v.mode with
  | .ok (.external x) => { b with files := (x.isConsistent b.files (b.graph s v)).2 }
  | _ => b

def dump (b : Base) (s : State) (v : View) : DumpFormat → String
  | .turtle => turtleText (b.graph s v).triples b.prefixes
  | .ntriples => ntriplesText (b.graph s v).triples

/-- A dump into a sink, which may refuse it. -/
def dumpTo (b : Base) (s : State) (v : View) (format : DumpFormat) (accepts : Bool) :
    Checked String :=
  if accepts then .ok (b.dump s v format) else .error (.host "failed to write the graph dump")

end Base

end Semlift.Knowledge
