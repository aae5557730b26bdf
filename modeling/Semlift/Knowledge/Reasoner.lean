import Semlift.Diagnostic
import Semlift.Host.Job
import Semlift.Ontology.Answer
import Semlift.Ontology.Entailment
import Semlift.Rdf.Writer

/-!
Reasoners: who says whether a graph is consistent and what the members of a class are. Some are
other programs: the graph is written to a file, and the program is given what is asked, the file
and, for members, the class expression with full names. Files that it writes are there when it is
asked again.
-/

namespace Semlift.Knowledge

open Semlift.Rdf Semlift.Files Semlift.Ontology Semlift.Text

structure External where
  command : List String
  /-- Where the graph is written and the program runs. -/
  directory : String
  deriving DecidableEq, Repr

namespace External

def name (x : External) : String := "external (" ++ join " " x.command ++ ")"

/-- The file of the graph is named for the process that asks. -/
def graphFile (x : External) : String :=
  joinPath x.directory
    ("smol-reasoner-" ++ Number.natText (Shell.Session.firstProcess - 1) ++ "-0.nt")

def failed (o : Host.Outcome) : Diagnostic :=
  let errors := trim o.errors.toList
  let reason := if errors.isEmpty then trim o.output.toList else errors
  .runtime ("external reasoner exited with status " ++ Number.intText o.status ++ ": " ++
    String.ofList reason)

/-- The output of the program for a question about a graph, and the files that it leaves. -/
def ask (x : External) (files : Tree) (g : Graph) (question : String) (more : List String) :
    Checked String × Tree :=
  if x.command.isEmpty then
    (.error (.runtime "no external reasoner command is configured"), files)
  else
    let files := (files.makeDirectories x.directory).write x.graphFile (ntriplesText g.triples)
    match files.place? x.graphFile with
    | none => (.error (.runtime ("cannot write reasoner input '" ++ x.graphFile ++ "'")), files)
    | some place =>
      let (o, files) := Host.Job.run
        ⟨x.command ++ question :: x.graphFile :: more, some x.directory, files⟩
      (if o.status = 0 then .ok o.output else .error (failed o), files.remove place)

def isConsistent (x : External) (files : Tree) (g : Graph) : Checked Bool × Tree :=
  let (answer, files) := x.ask files g "consistency" []
  (answer.bind verdict, files)

def instances (x : External) (files : Tree) (g : Graph) (e : ClassExpr) :
    Checked (List Term) × Tree :=
  let (answer, files) := x.ask files g "instances" [e.text]
  (answer.bind listed, files)

end External

/-! ### Kinds of reasoners -/

inductive Reasoner where
  /-- Reasons by the schema of the graph itself. -/
  | schema
  | external (x : External)
  deriving DecidableEq, Repr

namespace Reasoner

def name : Reasoner → String
  | .schema => "rdfs"
  | .external x => x.name

/-- Only a program looks at the files. -/
def isConsistent (r : Reasoner) (files : Tree) (g : Graph) : Checked Bool :=
  match r with
  | .schema => .ok (Ontology.isConsistent g)
  | .external x => (x.isConsistent files g).1

def instances (r : Reasoner) (files : Tree) (g : Graph) (e : ClassExpr) : Checked (List Term) :=
  match r with
  | .schema => .ok (Ontology.instances g e)
  | .external x => (x.instances files g e).1

end Reasoner

end Semlift.Knowledge
