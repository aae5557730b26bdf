import Semlift.Proofs.Ontology.Monotone
import Semlift.Proofs.Rdf.Snapshot

/-!
What class expressions mean. By the triples of a graph a class expression holds of certain terms;
its members are exactly these, each listed once. A complement is taken within the individuals, and
the class of everything as a filler asks for a triple and nothing more.
-/

namespace Semlift.Ontology

open Semlift.Rdf

variable {g : Graph} {x : Term} {e : ClassExpr} {iri : String}

/-- A term is typed with a class that is no meta class. -/
def Individual (g : Graph) (x : Term) : Prop :=
  ∃ c, ⟨x, rdfType, .iri c⟩ ∈ g.triples ∧ isMetaClass c = false

/-- What a class expression says of a term. -/
def ClassExpr.Holds (g : Graph) : ClassExpr → Term → Prop
  | .named iri, x =>
    if iri = Vocabulary.owlThing then Individual g x else ⟨x, rdfType, .iri iri⟩ ∈ g.triples
  | .inter first more, x => first.Holds g x ∧ ∀ e ∈ more, e.Holds g x
  | .union first more, x => first.Holds g x ∨ ∃ e, ∃ _ : e ∈ more, e.Holds g x
  | .complement e, x => Individual g x ∧ ¬e.Holds g x
  | .some property filler, x => ∃ y, ⟨x, .iri property, y⟩ ∈ g.triples ∧
    (filler = .named Vocabulary.owlThing ∨ filler.Holds g y)
  | .value property individual, x => ⟨x, .iri property, individual⟩ ∈ g.triples
  | .oneOf individuals, x => x ∈ individuals
termination_by e => e

lemma mem_individuals_iff : x ∈ individuals g ↔ Individual g x := by
  rw [mem_individuals]
  constructor
  · rintro ⟨⟨s, p, o⟩, ht, htype, rfl⟩
    simp only [typesIndividual, Bool.and_eq_true, beq_iff_eq] at htype
    obtain ⟨rfl, hclass⟩ := htype
    cases o with
    | iri c => exact ⟨c, ht, by simpa using hclass⟩
    | blank | literal => cases hclass
  · rintro ⟨c, ht, hmeta⟩
    exact ⟨_, ht, by simp [typesIndividual, hmeta], rfl⟩

lemma ClassExpr.isThing_iff : e.isThing ↔ e = .named Vocabulary.owlThing := by
  cases e <;> simp [isThing]

/-- No member is listed twice. -/
lemma nodup_members (g : Graph) (e : ClassExpr) : (e.members g).Nodup := by
  have hindividuals : (individuals g).Nodup := nodup_eraseDups _
  induction e using ClassExpr.induction with
  | named iri =>
    rw [ClassExpr.members]
    split
    · exact hindividuals
    · exact nodup_eraseDups _
  | inter first more hfirst _ =>
    rw [ClassExpr.members]
    exact hfirst.filter _
  | complement e _ =>
    rw [ClassExpr.members]
    exact hindividuals.filter _
  | union | some | value | oneOf =>
    rw [ClassExpr.members]
    exact nodup_eraseDups _

/-- **The members of a class expression** are the terms that it holds of, each listed once. -/
theorem members_exact (g : Graph) (e : ClassExpr) :
    (e.members g).Nodup ∧ ∀ x, x ∈ e.members g ↔ e.Holds g x := by
  refine ⟨nodup_members g e, ?_⟩
  induction e using ClassExpr.induction with
  | named iri =>
    intro x
    rw [ClassExpr.members, ClassExpr.Holds]
    split
    · exact mem_individuals_iff
    · rw [List.mem_eraseDups, Graph.mem_subjects]
  | inter first more hfirst hmore =>
    intro x
    rw [mem_members_inter, ClassExpr.Holds, hfirst]
    exact and_congr_right fun _ => forall₂_congr fun e he => hmore e he x
  | union first more hfirst hmore =>
    intro x
    rw [mem_members_union, ClassExpr.Holds, hfirst]
    simp only [exists_prop]
    exact or_congr_right (exists_congr fun e => and_congr_right fun he => hmore e he x)
  | complement e he =>
    intro x
    rw [ClassExpr.members, ClassExpr.Holds, List.mem_filter, mem_individuals_iff, ← he]
    simp
  | some property filler hfiller =>
    intro x
    rw [mem_members_some, ClassExpr.Holds]
    refine exists_congr fun y => and_congr_right fun _ => ?_
    rw [ClassExpr.isThing_iff, hfiller]
  | value property individual =>
    intro x
    rw [ClassExpr.members, ClassExpr.Holds, List.mem_eraseDups, Graph.mem_subjects]
  | oneOf individuals =>
    intro x
    rw [ClassExpr.members, ClassExpr.Holds, List.mem_eraseDups]

end Semlift.Ontology
