import Mathlib.Data.List.Basic
import Semlift.Knowledge.Base
import Semlift.Proofs.Rdf.Snapshot

/-!
What the graph of a running program holds: the triples of its objects, units and classes, the core
vocabulary and the background, as far as they are enabled. How the sources are guarded and whether
they are copied makes no difference to it, and a source that is asked for a pattern gives only what
the graph has.
-/

namespace Semlift

open Semlift.Rdf Semlift.Store

namespace Rdf.Source

variable {S : Source} {p : TriplePattern} {x : Triple}

/-- Every answer to a pattern is one of the triples of the pattern that the source gives at all. -/
def Contained (S : Source) : Prop := ∀ p, ∀ x ∈ S p, x ∈ S .any ∧ p.covers x

lemma contained_matching (g : Graph) : Contained g.matching := by
  intro p x hx
  rw [Graph.matching_eq_filter, List.mem_filter] at hx
  rw [Graph.matching_eq_filter, List.mem_filter]
  exact ⟨⟨hx.1, TriplePattern.any_covers x⟩, hx.2⟩

lemma mem_snapshot : x ∈ S.snapshot.triples ↔ x ∈ S .any := by
  rw [snapshot, Graph.triples_ofList, List.mem_eraseDups]

lemma mem_matching_any {g : Graph} : x ∈ g.matching .any ↔ x ∈ g.triples := by
  rw [Graph.matching_eq_filter, List.mem_filter, TriplePattern.any_covers, and_iff_left rfl]

end Rdf.Source

namespace Lift.Lifter

variable {l : Lifter} {s : State} {guarded : Bool} {p : TriplePattern} {x : Triple}

/-- A guard chooses among the objects and the units of a state. -/
lemma candidates_subset : (l.candidates s guarded p).1 ⊆ s.heap.objects ∧
    (l.candidates s guarded p).2 ⊆ s.simulation := by
  unfold candidates
  split
  · exact ⟨fun _ h => h, fun _ h => h⟩
  · split
    · split
      · exact ⟨List.nil_subset _, List.nil_subset _⟩
      · refine ⟨fun o ho => ?_, fun u hu => ?_⟩
        · exact List.mem_of_find?_eq_some (Option.mem_toList.1 ho)
        · exact List.mem_of_find?_eq_some (Option.mem_toList.1 hu)
    · split
      · exact ⟨List.filter_subset_self _, fun _ h => h⟩
      · exact ⟨fun _ h => h, fun _ h => h⟩

lemma mem_stateSource_any : x ∈ l.stateSource s guarded .any ↔
    (∃ o ∈ s.heap.objects, x ∈ l.objectTriples o) ∨ ∃ u ∈ s.simulation, x ∈ l.unitTriples u := by
  have hall : l.candidates s guarded .any = (s.heap.objects, s.simulation) := by
    unfold candidates TriplePattern.any
    cases guarded <;> rfl
  simp [stateSource, hall]

lemma mem_tableSource_any : x ∈ l.tableSource guarded .any ↔
    ∃ c ∈ l.table.names, x ∈ l.classTriples c := by
  cases guarded <;> simp [tableSource, TriplePattern.any, TriplePattern.covers, TriplePattern.fits]

lemma contained_stateSource : Source.Contained (l.stateSource s guarded) := by
  intro p x hx
  obtain ⟨hobjects, hunits⟩ : (l.candidates s guarded p).1 ⊆ s.heap.objects ∧
      (l.candidates s guarded p).2 ⊆ s.simulation := candidates_subset
  simp only [stateSource, List.mem_filter, List.mem_append, List.mem_flatMap] at hx
  obtain ⟨⟨o, ho, hx⟩ | ⟨u, hu, hx⟩, hp⟩ := hx
  · exact ⟨mem_stateSource_any.2 (.inl ⟨o, hobjects ho, hx⟩), hp⟩
  · exact ⟨mem_stateSource_any.2 (.inr ⟨u, hunits hu, hx⟩), hp⟩

lemma contained_tableSource : Source.Contained (l.tableSource guarded) := by
  intro p x hx
  simp only [tableSource, List.mem_filter, List.mem_flatMap] at hx
  obtain ⟨⟨c, hc, hx⟩, hp⟩ := hx
  refine ⟨mem_tableSource_any.2 ⟨c, ?_, hx⟩, hp⟩
  split at hc
  · exact (List.mem_filter.1 hc).1
  · exact hc

end Lift.Lifter

namespace Knowledge.Base

variable {b : Base} {s : State} {v : View} {p : TriplePattern} {x : Triple} {kind : LiftedKind}
  {S : Source} {k : SourceKind}

lemma mem_lifted_any : x ∈ lifted v kind S .any ↔ x ∈ S .any := by
  unfold lifted
  split
  · exact .rfl
  · rw [Source.mem_matching_any, Source.mem_snapshot]

lemma contained_lifted (hS : S.Contained) : (lifted v kind S).Contained := by
  unfold lifted
  split
  · exact hS
  · exact Source.contained_matching _

/-- What a part of the knowledge gives. -/
def Gives (b : Base) (s : State) (x : Triple) : SourceKind → Prop
  | .heap => (∃ o ∈ s.heap.objects, x ∈ b.lifter.objectTriples o) ∨
      ∃ u ∈ s.simulation, x ∈ b.lifter.unitTriples u
  | .classTable => ∃ c ∈ b.lifter.table.names, x ∈ b.lifter.classTriples c
  | .coreVocabulary => x ∈ b.core.triples
  | .background => x ∈ b.background.triples

lemma mem_sourceOf_any : x ∈ b.sourceOf s v k .any ↔ b.Gives s x k := by
  cases k with
  | heap => exact mem_lifted_any.trans Lift.Lifter.mem_stateSource_any
  | classTable => exact mem_lifted_any.trans Lift.Lifter.mem_tableSource_any
  | coreVocabulary | background => exact Source.mem_matching_any

lemma contained_sourceOf : (b.sourceOf s v k).Contained := by
  cases k with
  | heap => exact contained_lifted Lift.Lifter.contained_stateSource
  | classTable => exact contained_lifted Lift.Lifter.contained_tableSource
  | coreVocabulary | background => exact Source.contained_matching _

lemma mem_source : x ∈ b.source s v p ↔ ∃ k, v.enabled k ∧ x ∈ b.sourceOf s v k p := by
  have hall : ∀ k, k ∈ SourceKind.all := by rintro (_ | _ | _ | _) <;> decide
  simp [source, Source.union, hall]

/-- **The triples of the graph** are those of its enabled parts. -/
theorem mem_graph : x ∈ (b.graph s v).triples ↔ ∃ k, v.enabled k ∧ b.Gives s x k := by
  simp only [graph, Source.mem_snapshot, mem_source, mem_sourceOf_any]

/-- **What the sources answer to a pattern** the graph has, too. -/
theorem source_subset : b.source s v p ⊆ (b.graph s v).matching p := by
  intro x hx
  obtain ⟨k, hk, hx⟩ := mem_source.1 hx
  obtain ⟨hany, hp⟩ := contained_sourceOf p x hx
  rw [Graph.matching_eq_filter, List.mem_filter]
  exact ⟨mem_graph.2 ⟨k, hk, mem_sourceOf_any.1 hany⟩, hp⟩

end Knowledge.Base

end Semlift
