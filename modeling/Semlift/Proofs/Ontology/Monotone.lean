import Mathlib.Data.List.Basic
import Mathlib.Tactic.Lemma
import Semlift.Ontology.ClassExpr

/-!
Members in a larger graph. A class expression without a complement loses no member when triples are
added to the graph: each of its parts asks for triples that are there, none for triples that are
missing.
-/

namespace Semlift.Rdf.Graph

variable {g : Graph} {p : TriplePattern} {t : Triple} {x predicate object : Term}

lemma mem_matching : t ∈ g.matching p ↔ t ∈ g.triples ∧ p.covers t := by
  rw [matching_eq_filter, List.mem_filter]

lemma mem_subjects : x ∈ g.subjects predicate object ↔ ⟨x, predicate, object⟩ ∈ g.triples := by
  simp only [subjects, List.mem_map, mem_matching, TriplePattern.covers, TriplePattern.fits,
    Option.all_none, Option.all_some, Bool.true_and, Bool.and_eq_true, beq_iff_eq]
  constructor
  · rintro ⟨t, ⟨ht, rfl, rfl⟩, rfl⟩
    exact ht
  · exact fun ht => ⟨_, ⟨ht, rfl, rfl⟩, rfl⟩

end Semlift.Rdf.Graph

namespace Semlift.Ontology

open Semlift.Rdf

variable {g h : Graph} {x : Term} {e : ClassExpr} {property : String}

mutual

/-- Whether no complement is part of a class expression. -/
def ClassExpr.positive : ClassExpr → Bool
  | .complement _ => false
  | .inter first more => first.positive && ClassExpr.allPositive more
  | .union first more => first.positive && ClassExpr.allPositive more
  | .some _ filler => filler.positive
  | .named _ => true
  | .value _ _ => true
  | .oneOf _ => true

def ClassExpr.allPositive : List ClassExpr → Bool
  | [] => true
  | e :: more => e.positive && ClassExpr.allPositive more

end

lemma mem_individuals :
    x ∈ individuals g ↔ ∃ t ∈ g.triples, typesIndividual t ∧ t.subject = x := by
  simp only [individuals, List.mem_eraseDups, List.mem_map, List.mem_filter, and_assoc]

lemma mem_members_some : x ∈ (ClassExpr.some property e).members g ↔
    ∃ y, ⟨x, .iri property, y⟩ ∈ g.triples ∧ (e.isThing ∨ y ∈ e.members g) := by
  simp only [ClassExpr.members, List.mem_eraseDups, List.mem_map, List.mem_filter,
    Graph.mem_matching, TriplePattern.covers, TriplePattern.fits, Option.all_none, Option.all_some,
    Bool.true_and, Bool.and_true, beq_iff_eq, Bool.or_eq_true, List.contains_iff_mem]
  constructor
  · rintro ⟨t, ⟨⟨ht, hp⟩, hy⟩, rfl⟩
    exact ⟨t.object, hp ▸ ht, hy⟩
  · rintro ⟨y, ht, hy⟩
    exact ⟨_, ⟨⟨ht, rfl⟩, hy⟩, rfl⟩

lemma membersOfAll_eq_map (es : List ClassExpr) :
    ClassExpr.membersOfAll g es = es.map (·.members g) := by
  induction es with
  | nil => rfl
  | cons e es ih => rw [ClassExpr.membersOfAll, ih, List.map_cons]

lemma mem_members_inter {first : ClassExpr} {more : List ClassExpr} :
    x ∈ (ClassExpr.inter first more).members g ↔
      x ∈ first.members g ∧ ∀ e ∈ more, x ∈ e.members g := by
  simp [ClassExpr.members, membersOfAll_eq_map]

lemma mem_members_union {first : ClassExpr} {more : List ClassExpr} :
    x ∈ (ClassExpr.union first more).members g ↔
      x ∈ first.members g ∨ ∃ e ∈ more, x ∈ e.members g := by
  simp [ClassExpr.members, membersOfAll_eq_map]

mutual

/-- **Members stay members** when triples are added. -/
theorem members_mono (hgh : g.triples ⊆ h.triples) :
    ∀ e : ClassExpr, e.positive → e.members g ⊆ e.members h
  | .named iri, _, x, hx => by
    simp only [ClassExpr.members] at hx ⊢
    split at hx
    · rename_i hiri
      obtain ⟨t, ht, htype, rfl⟩ := mem_individuals.1 hx
      rw [if_pos hiri]
      exact mem_individuals.2 ⟨t, hgh ht, htype, rfl⟩
    · rename_i hiri
      rw [List.mem_eraseDups, Graph.mem_subjects] at hx
      rw [if_neg hiri, List.mem_eraseDups, Graph.mem_subjects]
      exact hgh hx
  | .inter first more, hp, x, hx => by
    rw [ClassExpr.positive, Bool.and_eq_true] at hp
    obtain ⟨hfirst, hmore⟩ := mem_members_inter.1 hx
    exact mem_members_inter.2 ⟨members_mono hgh first hp.1 hfirst,
      fun e he => members_mono_of_mem hgh more hp.2 e he (hmore e he)⟩
  | .union first more, hp, x, hx => by
    rw [ClassExpr.positive, Bool.and_eq_true] at hp
    refine mem_members_union.2 ((mem_members_union.1 hx).imp ?_ ?_)
    · exact fun hfirst => members_mono hgh first hp.1 hfirst
    · exact fun ⟨e, he, hmore⟩ => ⟨e, he, members_mono_of_mem hgh more hp.2 e he hmore⟩
  | .complement _, hp, _, _ => by cases hp
  | .some property filler, hp, x, hx => by
    obtain ⟨y, ht, hy⟩ := mem_members_some.1 hx
    exact mem_members_some.2 ⟨y, hgh ht, hy.imp_right fun hy => members_mono hgh filler hp hy⟩
  | .value property individual, _, x, hx => by
    rw [ClassExpr.members, List.mem_eraseDups, Graph.mem_subjects] at hx ⊢
    exact hgh hx
  | .oneOf individuals, _, _, hx => hx

theorem members_mono_of_mem (hgh : g.triples ⊆ h.triples) :
    ∀ es : List ClassExpr, ClassExpr.allPositive es → ∀ e ∈ es, e.members g ⊆ e.members h
  | e :: more, hp, d, hd => by
    rw [ClassExpr.allPositive, Bool.and_eq_true] at hp
    rcases List.mem_cons.1 hd with hd | hd
    · exact hd ▸ members_mono hgh e hp.1
    · exact members_mono_of_mem hgh more hp.2 d hd

end

end Semlift.Ontology
