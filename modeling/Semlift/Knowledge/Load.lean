import Semlift.Config.Settings
import Semlift.Knowledge.Base

/-!
The knowledge of a program by its settings.
-/

namespace Semlift.Knowledge

open Semlift.Rdf Semlift.Files

/-- The graph of a background ontology; a path without text names none. -/
def readBackground (prefixes : Prefixes) (tree : Tree) (path : String) : Checked Graph :=
  if path.isEmpty then .ok .empty
  else ((Turtle.Reader.new prefixes "bg_").readNamed path (tree.read? path)).1

/-- The reasoner of a command; there is none without a command. -/
def externalReasoner (s : Config.Settings) : Option Reasoner :=
  if s.reasoner.isEmpty then none else some (.external ⟨s.reasoner, s.outdir⟩)

def coreGraph (prefixes : Prefixes) : Checked Graph :=
  match core prefixes with
  | .ok g => .ok g
  | .error e => .error e.diagnostic

/-- Reads the templates of the program, the core vocabulary and the background ontology. -/
def Base.load (t : Program.ClassTable) (s : Config.Settings) (tree : Tree) : Checked Base := do
  let prefixes := s.prefixes
  let lifter ← Lift.Lifter.new t s.namespaces prefixes
  let core ← coreGraph prefixes
  let background ← readBackground prefixes tree s.background
  return ⟨prefixes, s.domain, lifter, core, background, some .schema, externalReasoner s, tree⟩

end Semlift.Knowledge
