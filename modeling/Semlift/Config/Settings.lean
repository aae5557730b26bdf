import Semlift.Knowledge.View
import Semlift.Lift.Names
import Semlift.Rdf.Prefixes

/-!
The settings of a session: where things are, how they are named, which reasoner is used and how
often garbage is collected.
-/

namespace Semlift.Config

open Semlift.Rdf

structure Settings where
  verbose : Bool
  outdir : String
  /-- A document with background knowledge; empty for none. -/
  background : String
  domain : String
  program : String
  run : String
  language : String
  /-- Prefixes besides the standard ones. -/
  extra : List (String × String)
  /-- The command of a reasoner that is another program; empty for none. -/
  reasoner : List String
  view : Knowledge.View
  /-- How many steps lie between two collections; zero for no collection. -/
  gcInterval : Nat

namespace Settings

/-- The namespace of a run that is named by its time. -/
def stampedRun (stamp : String) : String :=
  "https://github.com/Edkamb/SemanticObjects/Run" ++ stamp ++ "#"

def default (stamp : String) : Settings where
  verbose := false
  outdir := "/tmp/mo"
  background := ""
  domain := "https://github.com/Edkamb/SemanticObjects/ontologies/default#"
  program := "https://github.com/Edkamb/SemanticObjects/Program#"
  run := stampedRun stamp
  language := "https://github.com/Edkamb/SemanticObjects#"
  extra := []
  reasoner := []
  view := .default
  gcInterval := 0

/-- The prefixes of queries, ontologies and templates. An extra prefix may replace a standard one.
-/
def prefixes (s : Settings) : Prefixes :=
  Prefixes.empty.addAll [("domain", s.domain), ("smol", s.language), ("prog", s.program),
    ("run", s.run)] |>.addAll Prefixes.standard.entries |>.addAll s.extra

def namespaces (s : Settings) : Lift.Namespaces := ⟨s.program, s.run, s.language, s.domain⟩

end Settings

end Semlift.Config
