import Mathlib.Data.List.Infix
import Mathlib.Data.List.Perm.Subperm
import Mathlib.Data.List.ProdSigma
import Mathlib.Data.Set.Basic
import Mathlib.Order.Bounds.Defs
import Mathlib.Tactic.Tauto
import Semlift.Ontology.Entailment
import Semlift.Proofs.Ontology.Monotone
import Semlift.Proofs.Search

/-!
The closure of a graph is the least set of triples that holds the graph and is closed under the
rules of its schema. What is found stays within every closed set that holds the graph, and one such
set is finite: the triples of the graph's own terms. So neither the pending triples nor the rounds
outlast their bounds, and the last round has found nothing new under a schema that does not grow.

A graph is inconsistent if its closure holds a member of the empty class, or a common member of two
classes declared disjoint. Both are triples that are there, and a larger graph entails more: so
facts that are added never make an inconsistent graph consistent. What is entailed already can be
added without any effect, for a closure is its own closure.
-/

namespace Semlift.Rdf.Graph

variable {g : Graph} {ts : List Triple} {t : Triple}

lemma prefix_add : g.triples <+: (g.add t).triples := by
  rw [triples_add]
  split
  · exact List.prefix_refl _
  · exact List.prefix_append _ _

lemma prefix_addAll : g.triples <+: (g.addAll ts).triples := by
  induction ts generalizing g with
  | nil => exact List.prefix_refl _
  | cons t ts ih => exact prefix_add.trans ih

lemma addAll_of_subset (h : ts ⊆ g.triples) : g.addAll ts = g := by
  induction ts with
  | nil => rfl
  | cons t ts ih =>
    rw [addAll_cons, add_of_mem (h List.mem_cons_self)]
    exact ih fun u hu => h (List.mem_cons_of_mem t hu)

end Semlift.Rdf.Graph

namespace Semlift.Ontology

open Semlift.Rdf

variable {g h : Graph} {s : Schema} {S : Set Triple} {e t u : Triple} {a b : Term}
  {pending U : List Triple} {fuel limit rounds : Nat}

/-- A set of triples in which the rules of the schema find nothing new. -/
structure Closed (S : Set Triple) : Prop where
  type : ∀ x c d, ⟨x, rdfType, c⟩ ∈ S → ⟨c, subClassOf, d⟩ ∈ S → ⟨x, rdfType, d⟩ ∈ S
  subClass : ∀ b c d, ⟨b, subClassOf, c⟩ ∈ S → ⟨c, subClassOf, d⟩ ∈ S → ⟨b, subClassOf, d⟩ ∈ S
  subProperty : ∀ p q r,
    ⟨p, subPropertyOf, q⟩ ∈ S → ⟨q, subPropertyOf, r⟩ ∈ S → ⟨p, subPropertyOf, r⟩ ∈ S
  inherit : ∀ x p q y, ⟨x, p, y⟩ ∈ S → ⟨p, subPropertyOf, q⟩ ∈ S → ⟨x, q, y⟩ ∈ S
  domain : ∀ x p y c, ⟨x, p, y⟩ ∈ S → ⟨p, domain, c⟩ ∈ S → ⟨x, rdfType, c⟩ ∈ S
  range : ∀ x p y c,
    ⟨x, p, y⟩ ∈ S → ⟨p, range, c⟩ ∈ S → y.isLiteral = false → ⟨y, rdfType, c⟩ ∈ S

/-! ### The consequences of one triple -/

lemma mem_edgesOf {p : Term} : (a, b) ∈ edgesOf g p ↔ ⟨a, p, b⟩ ∈ g.triples := by
  simp only [edgesOf, Graph.matching_eq_filter, List.mem_map, List.mem_filter,
    TriplePattern.covers, TriplePattern.fits, Prod.mk.injEq]
  constructor
  · rintro ⟨⟨x, q, y⟩, ⟨ht, hq⟩, rfl, rfl⟩
    obtain rfl : p = q := by simpa using hq
    exact ht
  · exact fun ht => ⟨_, ⟨ht, by simp⟩, rfl, rfl⟩

lemma mem_consequences : u ∈ s.consequences t ↔
    (t.predicate = rdfType ∧ ∃ c ∈ reach s.classes t.object, ⟨t.subject, rdfType, c⟩ = u) ∨
    (t.predicate = subClassOf ∧
      ∃ c ∈ reach s.classes t.object, ⟨t.subject, subClassOf, c⟩ = u) ∨
    (t.predicate = subPropertyOf ∧
      ∃ p ∈ reach s.properties t.object, ⟨t.subject, subPropertyOf, p⟩ = u) ∨
    (∃ p ∈ reach s.properties t.predicate, ⟨t.subject, p, t.object⟩ = u) ∨
    (∃ c ∈ targets s.domains t.predicate, ⟨t.subject, rdfType, c⟩ = u) ∨
    (t.object.isLiteral = false ∧
      ∃ c ∈ targets s.ranges t.predicate, ⟨t.object, rdfType, c⟩ = u) := by
  have h1 : subClassOf ≠ rdfType := by decide
  have h2 : subPropertyOf ≠ rdfType := by decide
  have h3 : subPropertyOf ≠ subClassOf := by decide
  simp only [Schema.consequences, List.mem_append, List.mem_map, or_assoc]
  by_cases hl : t.object.isLiteral <;> by_cases ht : t.predicate = rdfType <;>
    by_cases hc : t.predicate = subClassOf <;> by_cases hp : t.predicate = subPropertyOf <;>
    simp_all

/-- A chain of edges is followed edge by edge, each by the rule for a single edge. -/
lemma holds_of_reach {P : Term → Prop} {q : Term} (hg : ∀ t ∈ g.triples, t ∈ S) (ha : P a)
    (hb : b ∈ reach (edgesOf g q) a) (h : ∀ c d, P c → ⟨c, q, d⟩ ∈ S → P d) : P b := by
  have hchain := mem_reach.1 hb
  clear hb
  induction hchain with
  | single he => exact h _ _ ha (hg _ (mem_edgesOf.1 he))
  | tail _ he ih => exact h _ _ ih (hg _ (mem_edgesOf.1 he))

/-- A closed set holds what its triples entail under the schema of a graph within it. -/
lemma Closed.consequences (hS : Closed S) (hg : ∀ t ∈ g.triples, t ∈ S) (ht : t ∈ S)
    (hu : u ∈ (Schema.of g).consequences t) : u ∈ S := by
  obtain ⟨x, p, y⟩ := t
  rcases mem_consequences.1 hu with ⟨rfl, c, hc, rfl⟩ | ⟨rfl, c, hc, rfl⟩ | ⟨rfl, q, hq, rfl⟩ |
    ⟨q, hq, rfl⟩ | ⟨c, hc, rfl⟩ | ⟨hl, c, hc, rfl⟩
  · exact holds_of_reach (P := fun c => ⟨x, rdfType, c⟩ ∈ S) hg ht hc (hS.type x)
  · exact holds_of_reach (P := fun c => ⟨x, subClassOf, c⟩ ∈ S) hg ht hc (hS.subClass x)
  · exact holds_of_reach (P := fun q => ⟨x, subPropertyOf, q⟩ ∈ S) hg ht hq (hS.subProperty x)
  · exact holds_of_reach (P := fun q => ⟨x, q, y⟩ ∈ S) hg ht hq fun q r h => hS.inherit x q r y h
  · exact hS.domain x p y c ht (hg _ (mem_edgesOf.1 (mem_targets.1 hc)))
  · exact hS.range x p y c ht (hg _ (mem_edgesOf.1 (mem_targets.1 hc))) hl

/-- A graph that holds what its triples entail under its own schema is closed. -/
lemma closed_of_consequences
    (h : ∀ t ∈ g.triples, ∀ u ∈ (Schema.of g).consequences t, u ∈ g.triples) :
    Closed {t | t ∈ g.triples} := by
  have edge {a p b : Term} (ht : ⟨a, p, b⟩ ∈ g.triples) : b ∈ reach (edgesOf g p) a :=
    mem_reach.2 (.single (mem_edgesOf.2 ht))
  have target {a p b : Term} (ht : ⟨a, p, b⟩ ∈ g.triples) : b ∈ targets (edgesOf g p) a :=
    mem_targets.2 (mem_edgesOf.2 ht)
  refine ⟨fun x c d hx hc => ?_, fun b c d hb hc => ?_, fun p q r hp hq => ?_,
    fun x p q y hx hp => ?_, fun x p y c hx hp => ?_, fun x p y c hx hp hl => ?_⟩
  · exact h _ hx _ (mem_consequences.2 (.inl ⟨rfl, d, edge hc, rfl⟩))
  · exact h _ hb _ (mem_consequences.2 (.inr (.inl ⟨rfl, d, edge hc, rfl⟩)))
  · exact h _ hp _ (mem_consequences.2 (.inr (.inr (.inl ⟨rfl, r, edge hq, rfl⟩))))
  · exact h _ hx _ (mem_consequences.2 (.inr (.inr (.inr (.inl ⟨q, edge hp, rfl⟩)))))
  · exact h _ hx _ (mem_consequences.2 (.inr (.inr (.inr (.inr (.inl ⟨c, target hp, rfl⟩))))))
  · exact h _ hx _
      (mem_consequences.2 (.inr (.inr (.inr (.inr (.inr ⟨hl, c, target hp, rfl⟩))))))

/-! ### One round -/

lemma prefix_saturate : g.triples <+: (saturate s fuel g pending).triples := by
  fun_induction saturate s fuel g pending with
  | case1 | case2 => exact List.prefix_refl _
  | case3 n g t more h ih => exact Graph.prefix_addAll.trans ih

/-- A round stays within what holds its triples and their consequences. -/
lemma saturate_subset {P : Triple → Prop} (hP : ∀ t, P t → ∀ u ∈ s.consequences t, P u)
    (hg : ∀ t ∈ g.triples, P t) (hp : ∀ t ∈ pending, P t) :
    ∀ t ∈ (saturate s fuel g pending).triples, P t := by
  fun_induction saturate s fuel g pending with
  | case1 | case2 => exact hg
  | case3 n g t more h ih =>
    have hh : ∀ u ∈ h.triples, P u := by
      intro u hu
      rcases Graph.mem_addAll.1 hu with hu | hu
      · exact hg u hu
      · exact hP t (hp t (by simp)) u hu
    refine ih hh fun u hu => ?_
    rcases List.mem_append.1 hu with hu | hu
    · exact hp u (by simp [hu])
    · exact hh u (List.mem_of_mem_drop hu)

/-- No graph has more triples than a list that holds them. -/
lemma size_le (h : ∀ t ∈ g.triples, t ∈ U) : g.size ≤ U.length :=
  (List.subperm_of_subset g.nodup h).length_le

/-- **A round is complete** if its fuel lasts for the pending triples and those still possible:
the graph then holds what each of its triples entails. -/
lemma saturate_complete (hU : ∀ t ∈ U, ∀ u ∈ s.consequences t, u ∈ U)
    (hg : ∀ t ∈ g.triples, t ∈ U) (hp : ∀ t ∈ pending, t ∈ g.triples)
    (hd : ∀ t ∈ g.triples, t ∉ pending → ∀ u ∈ s.consequences t, u ∈ g.triples)
    (hf : pending.length + U.length ≤ fuel + g.size) :
    ∀ t ∈ (saturate s fuel g pending).triples, ∀ u ∈ s.consequences t,
      u ∈ (saturate s fuel g pending).triples := by
  fun_induction saturate s fuel g pending with
  | case1 pending g =>
    have hsize := size_le hg
    obtain rfl : pending = [] := List.length_eq_zero_iff.1 (by omega)
    exact fun t ht => hd t ht (by simp)
  | case2 => exact fun t ht => hd t ht (by simp)
  | case3 n g t more h ih =>
    have hpre : g.triples <+: h.triples := Graph.prefix_addAll
    have hsplit : g.triples ++ h.triples.drop g.size = h.triples :=
      (List.prefix_append_drop hpre).symm
    have hcons : ∀ u ∈ s.consequences t, u ∈ h.triples := fun u hu => Graph.mem_addAll.2 (.inr hu)
    have hlen := congrArg List.length hsplit
    rw [List.length_append] at hlen
    refine ih ?_ ?_ ?_ ?_
    · intro u hu
      rcases Graph.mem_addAll.1 hu with hu | hu
      · exact hg u hu
      · exact hU t (hg t (hp t (by simp))) u hu
    · intro u hu
      rcases List.mem_append.1 hu with hu | hu
      · exact hpre.subset (hp u (by simp [hu]))
      · exact List.mem_of_mem_drop hu
    · -- what is no longer pending is `t`, or was done before
      intro v hv hn u hu
      rw [List.mem_append, not_or] at hn
      have hvg : v ∈ g.triples := by
        rw [← hsplit] at hv
        exact (List.mem_append.1 hv).resolve_right hn.2
      by_cases hvt : v = t
      · exact hcons u (hvt ▸ hu)
      · exact hpre.subset (hd v hvg (by simp [hvt, hn.1]) u hu)
    · simp only [List.length_append, List.length_cons, Graph.size] at hf hlen ⊢
      omega

/-! ### Rounds until nothing is new -/

lemma prefix_closeWithin : g.triples <+: (closeWithin limit rounds g).triples := by
  fun_induction closeWithin limit rounds g with
  | case1 | case2 => exact List.prefix_refl _
  | case3 n g h hn ih => exact prefix_saturate.trans ih

lemma closeWithin_subset (hS : Closed S) (hg : ∀ t ∈ g.triples, t ∈ S) :
    ∀ t ∈ (closeWithin limit rounds g).triples, t ∈ S := by
  fun_induction closeWithin limit rounds g with
  | case1 | case2 => exact hg
  | case3 n g h hn ih =>
    exact ih (saturate_subset (fun _ ht _ hu => hS.consequences hg ht hu) hg hg)

/-- **Rounds are complete** if there are as many as triples still possible. -/
lemma closed_closeWithin (hU : Closed {t | t ∈ U}) (hg : ∀ t ∈ g.triples, t ∈ U)
    (hl : U.length ≤ limit) (hr : U.length ≤ rounds + g.size) :
    Closed {t | t ∈ (closeWithin limit rounds g).triples} := by
  fun_induction closeWithin limit rounds g with
  | case1 g =>
    -- every possible triple is there
    have hperm := (List.subperm_of_subset g.nodup hg).perm_of_length_le
      (by simpa [Graph.size] using hr)
    exact closed_of_consequences fun t ht u hu =>
      hperm.mem_iff.2 (hU.consequences hg (hg t ht) hu)
  | case2 n g h hn =>
    have hpre : g.triples <+: h.triples := prefix_saturate
    have heq : g.triples = h.triples := hpre.eq_of_length hn.symm
    refine closed_of_consequences fun t ht u hu => ?_
    rw [heq] at ht ⊢
    refine saturate_complete (U := U) (fun t ht u hu => hU.consequences hg ht hu) hg (fun _ h => h)
      (fun t ht hn => absurd ht hn) ?_ t ht u hu
    have := size_le hg
    simp only [Graph.size] at this ⊢
    omega
  | case3 n g h hn ih =>
    have hpre : g.triples <+: h.triples := prefix_saturate
    have hle : g.size ≤ h.size := hpre.length_le
    exact ih (saturate_subset (fun _ ht _ hu => hU.consequences hg ht hu) hg hg) (by omega)

/-! ### The possible triples -/

/-- The terms that a closure can have. -/
def closureTerms (g : Graph) : List Term :=
  rdfType :: g.triples.flatMap fun t => [t.subject, t.predicate, t.object]

/-- The triples that a closure can have. -/
def closureTriples (g : Graph) : List Triple :=
  (closureTerms g ×ˢ closureTerms g ×ˢ closureTerms g).map fun x => ⟨x.1, x.2.1, x.2.2⟩

lemma mem_closureTriples : t ∈ closureTriples g ↔
    t.subject ∈ closureTerms g ∧ t.predicate ∈ closureTerms g ∧ t.object ∈ closureTerms g := by
  obtain ⟨x, p, y⟩ := t
  simp [closureTriples, List.mem_product]

lemma length_closureTriples : (closureTriples g).length = bound g := by
  have hlen : (closureTerms g).length = 3 * g.size + 1 := by
    simp [closureTerms, Graph.size, List.length_flatMap, Nat.mul_comm]
  simp [closureTriples, List.length_product, hlen, bound, Nat.mul_assoc]

lemma mem_closureTriples_of_mem (ht : t ∈ g.triples) : t ∈ closureTriples g := by
  refine mem_closureTriples.2 ⟨?_, ?_, ?_⟩ <;>
    exact List.mem_cons_of_mem _ (List.mem_flatMap.2 ⟨t, ht, by simp⟩)

/-- No rule forms a term, apart from the type predicate. -/
lemma closed_closureTriples : Closed {t | t ∈ closureTriples g} := by
  have htype : rdfType ∈ closureTerms g := List.mem_cons_self
  constructor
  all_goals
    simp only [Set.mem_ofPred_eq, mem_closureTriples]
    tauto

lemma subset_closure : g.triples ⊆ (closure g).triples := prefix_closeWithin.subset

/-- What is closed under the rules and holds the graph holds the closure. -/
lemma closure_subset (hS : Closed S) (hg : ∀ t ∈ g.triples, t ∈ S) :
    ∀ t ∈ (closure g).triples, t ∈ S :=
  closeWithin_subset hS hg

lemma closed_closure : Closed {t | t ∈ (closure g).triples} := by
  have hlen : (closureTriples g).length = bound g := length_closureTriples
  exact closed_closeWithin closed_closureTriples (fun t ht => mem_closureTriples_of_mem ht)
    (by omega) (by omega)

/-! ### A closure operator -/

/-- A round that finds nothing new leaves the graph as it is. -/
lemma saturate_eq_self (h : ∀ t ∈ pending, ∀ u ∈ s.consequences t, u ∈ g.triples) :
    saturate s fuel g pending = g := by
  induction pending generalizing fuel with
  | nil => cases fuel <;> rfl
  | cons t more ih =>
    cases fuel with
    | zero => rfl
    | succ n =>
      have hadd : g.addAll (s.consequences t) = g :=
        Graph.addAll_of_subset fun u hu => h t List.mem_cons_self u hu
      have hdrop : g.triples.drop g.size = [] := List.drop_length
      simp only [saturate, hadd, hdrop, List.append_nil]
      exact ih fun v hv => h v (List.mem_cons_of_mem t hv)

lemma saturate_of_closed (hg : Closed {t | t ∈ g.triples}) :
    saturate (.of g) fuel g g.triples = g :=
  saturate_eq_self fun _ ht _ hu => hg.consequences (fun _ h => h) ht hu

/-- Nothing is added to a closed graph. -/
lemma closeWithin_of_closed (hg : Closed {t | t ∈ g.triples}) : closeWithin limit rounds g = g := by
  cases rounds with
  | zero => rfl
  | succ n => simp only [closeWithin, saturate_of_closed hg, if_true]

lemma closure_closure (g : Graph) : closure (closure g) = closure g :=
  closeWithin_of_closed closed_closure

/-- A larger graph entails more. -/
lemma closure_mono (hgh : g.triples ⊆ h.triples) : (closure g).triples ⊆ (closure h).triples :=
  fun t ht => closure_subset closed_closure (fun _ hu => subset_closure (hgh hu)) t ht

/-- **The closure of a graph** begins with the graph, and its triples are the least set that holds
the graph and is closed under the rules. -/
theorem isLeast_closure (g : Graph) :
    g.triples <+: (closure g).triples ∧
      IsLeast {S : Set Triple | (∀ t ∈ g.triples, t ∈ S) ∧ Closed S}
        {t | t ∈ (closure g).triples} := by
  refine ⟨prefix_closeWithin, ⟨fun t ht => subset_closure ht, closed_closure⟩, ?_⟩
  rintro S ⟨hg, hS⟩ t ht
  exact closure_subset hS hg t ht

/-! ### Consistency -/

lemma clashes_iff : clashes g e ↔
    ∃ x, ⟨x, rdfType, e.subject⟩ ∈ g.triples ∧ ⟨x, rdfType, e.object⟩ ∈ g.triples := by
  simp only [clashes, List.any_eq_true, List.contains_iff_mem, Graph.mem_subjects]

lemma isConsistent_iff : isConsistent g ↔
    (∀ x, ⟨x, rdfType, nothing⟩ ∉ (closure g).triples) ∧
      ∀ e ∈ (closure g).triples, e.predicate = disjointWith → ¬ clashes (closure g) e := by
  simp only [isConsistent, Bool.and_eq_true, List.isEmpty_iff, List.eq_nil_iff_forall_not_mem,
    Graph.mem_subjects, List.all_eq_true, Graph.mem_matching, Bool.not_eq_true', Bool.not_eq_true,
    TriplePattern.covers, TriplePattern.fits, Option.all_none, Option.all_some, Bool.true_and,
    Bool.and_true, beq_iff_eq, and_imp, @eq_comm _ disjointWith]

/-- A common member of two classes stays one. -/
lemma clashes_mono (hgh : g.triples ⊆ h.triples) (he : clashes g e) : clashes h e := by
  obtain ⟨x, hsubject, hobject⟩ := clashes_iff.1 he
  exact clashes_iff.2 ⟨x, hgh hsubject, hgh hobject⟩

lemma isConsistent_of_subset (hgh : g.triples ⊆ h.triples) (hh : isConsistent h) :
    isConsistent g := by
  have hclosure : (closure g).triples ⊆ (closure h).triples := closure_mono hgh
  obtain ⟨hnothing, hdisjoint⟩ := isConsistent_iff.1 hh
  refine isConsistent_iff.2 ⟨fun x hx => hnothing x (hclosure hx), fun e he hp hclash => ?_⟩
  exact hdisjoint e (hclosure he) hp (clashes_mono hclosure hclash)

/-- **Facts that are added never repair an inconsistency**, and those that are entailed already
change nothing: a closure is its own closure, in the same order. -/
theorem consistency_antitone (g : Graph) :
    (∀ h : Graph, g.triples ⊆ h.triples → isConsistent h = true → isConsistent g = true) ∧
      (closure (closure g)).triples = (closure g).triples ∧
      isConsistent (closure g) = isConsistent g := by
  refine ⟨fun h hgh hh => isConsistent_of_subset hgh hh, ?_, ?_⟩
  · rw [closure_closure]
  · unfold isConsistent
    rw [closure_closure]

/-- Kinds of animals are declared through a property that is itself declared to make subclasses. -/
def animalGraph : Graph :=
  .ofList [⟨.iri "urn:kind", subPropertyOf, subClassOf⟩,
    ⟨.iri "urn:Dog", .iri "urn:kind", .iri "urn:Animal"⟩,
    ⟨.iri "urn:Animal", disjointWith, .iri "urn:Plant"⟩,
    ⟨.iri "urn:rex", rdfType, .iri "urn:Dog"⟩]

def gardenGraph : Graph := animalGraph.add ⟨.iri "urn:fern", rdfType, .iri "urn:Plant"⟩

/-- A plant beside a dog does no harm, before or after; the dog as a plant would. -/
theorem consistency_antitone_garden : animalGraph.triples ⊆ gardenGraph.triples ∧
    isConsistent gardenGraph = true ∧ isConsistent animalGraph = true ∧
    isConsistent (animalGraph.add ⟨.iri "urn:rex", rdfType, .iri "urn:Plant"⟩) = false := by
  have hsubset : animalGraph.triples ⊆ gardenGraph.triples := Graph.prefix_add.subset
  have hgarden : isConsistent gardenGraph = true := by decide +kernel
  exact ⟨hsubset, hgarden, (consistency_antitone animalGraph).1 gardenGraph hsubset hgarden,
    by decide +kernel⟩

end Semlift.Ontology
