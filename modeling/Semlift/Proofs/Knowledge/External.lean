import Semlift.Knowledge.Reasoner
import Semlift.Proofs.Ontology.Answer

/-!
Reasoners that are other programs. What such a reasoner answers is what the program prints, if it is
started on the graph and exits with zero; members that it prints a term a line are then the members
that are found.
-/

namespace Semlift.Knowledge.External

open Semlift.Rdf Semlift.Files Semlift.Ontology

variable {x : External} {files : Tree} {g : Graph} {question output : String} {more : List String}
  {e : ClassExpr} {xs : List Term}

/-- The files that the program finds: its directory, and the graph in a file there. -/
def prepared (x : External) (files : Tree) (g : Graph) : Tree :=
  (files.makeDirectories x.directory).write x.graphFile (ntriplesText g.triples)

/-- The program with what it is given for a question. -/
def job (x : External) (files : Tree) (g : Graph) (question : String) (more : List String) :
    Host.Job :=
  ⟨x.command ++ question :: x.graphFile :: more, .some x.directory, x.prepared files g⟩

/-- A program is started for a question about a graph, prints its answer and exits with zero. -/
structure Replies (x : External) (files : Tree) (g : Graph) (question : String)
    (more : List String) (output : String) : Prop where
  command : x.command ≠ []
  graph : ((x.prepared files g).place? x.graphFile).isSome
  status : (x.job files g question more).run.1.status = 0
  output : (x.job files g question more).run.1.output = output

/-- The answer to a question is what the program prints, and there is none in other cases. -/
lemma ask_eq_ok_iff : (x.ask files g question more).1 = .ok output ↔
    x.Replies files g question more output := by
  by_cases hcommand : x.command = []
  · simp only [ask, hcommand, List.isEmpty_nil, if_true, reduceCtorEq, false_iff]
    exact fun h => h.command hcommand
  cases hplace : (x.prepared files g).place? x.graphFile with
  | none =>
    have hask : (x.ask files g question more).1 =
        .error (.runtime ("cannot write reasoner input '" ++ x.graphFile ++ "'")) := by
      rw [prepared] at hplace
      simp [ask, hcommand, hplace]
    simp only [hask, reduceCtorEq, false_iff]
    intro h
    simpa [hplace] using h.graph
  | some place =>
    have hask : (x.ask files g question more).1 =
        if (x.job files g question more).run.1.status = 0 then
          .ok (x.job files g question more).run.1.output
        else .error (failed (x.job files g question more).run.1) := by
      rw [prepared] at hplace
      rw [ask, if_neg (by simpa using hcommand)]
      simp only [hplace]
      rfl
    rw [hask]
    constructor
    · intro h
      split_ifs at h with hstatus
      exact ⟨hcommand, by simp [hplace], hstatus, Except.ok.inj h⟩
    · intro h
      rw [if_pos h.status, h.output]

end Semlift.Knowledge.External
