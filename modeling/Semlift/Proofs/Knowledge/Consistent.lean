import Semlift.Proofs.Knowledge.Entailed

/-!
When a program agrees with the vocabulary of the language. The kinds of declared things are declared
disjoint, and a thing is known by its name alone: so the knowledge of a program without annotations is
consistent exactly if no two things of different kinds have one name. A field and a method of a class
that are named alike are accepted all the same.
-/

namespace Semlift.Knowledge

open Semlift.Rdf Semlift.Program Semlift.Lift Semlift.Store
open Semlift.Ontology (rdfType disjointWith)

variable {t : ClassTable} {settings : Config.Settings} {s : State} {b : Base} {v : View} {x : Term}
  {k : Kind} {source : Program.Source} {tree : Files.Tree}

/-- No name is one of two kinds. -/
def NamesApart (t : ClassTable) : Prop :=
  ∀ k k' : Kind, k ≠ k' → (namesOf t k).Disjoint (namesOf t k')

instance : DecidablePred NamesApart := fun t =>
  decidable_of_iff (∀ k ∈ Kind.all, ∀ k' ∈ Kind.all, k ≠ k' → ∀ n ∈ namesOf t k, n ∉ namesOf t k')
    ⟨fun h k k' => h k k.mem_all k' k'.mem_all, fun h k _ k' _ => h k k'⟩

namespace Declared

/-- What is of a kind is declared as such. -/
lemma mem_closure_kind (h : Declared t settings b v) :
    ⟨x, rdfType, usualWord k.word⟩ ∈ (Ontology.closure (b.graph s v)).triples ↔
      ∃ n ∈ namesOf t k, x = settings.namespaces.classIri n := by
  constructor
  · exact fun hx => ((h.explained _ hx).type rfl).declared k rfl
  · rintro ⟨n, hn, rfl⟩
    obtain ⟨c, hc, he⟩ := exists_mem_classTriples settings.namespaces hn
    rw [word_eq h.usual] at he
    exact h.mem_closure_of_class hc he

/-- **Knowledge is consistent** exactly if no name is one of two kinds. -/
theorem isConsistent_iff (h : Declared t settings b v) :
    Ontology.isConsistent (b.graph s v) ↔ NamesApart t := by
  rw [Ontology.isConsistent_iff]
  constructor
  · rintro ⟨-, hdisjoint⟩ k k' hne n hn hn'
    have htype := h.mem_closure_kind (s := s) (k := k).2 ⟨n, hn, rfl⟩
    have htype' := h.mem_closure_kind (s := s) (k := k').2 ⟨n, hn', rfl⟩
    rcases core_disjoint k k' hne with he | he
    · exact hdisjoint _ (h.mem_closure_of_core he) rfl
        (Ontology.clashes_iff.2 ⟨_, htype, htype'⟩)
    · exact hdisjoint _ (h.mem_closure_of_core he) rfl
        (Ontology.clashes_iff.2 ⟨_, htype', htype⟩)
  · intro hdisjoint
    refine ⟨fun x hx => ((h.explained _ hx).type rfl).proper rfl, fun e he hp hclash => ?_⟩
    obtain ⟨k, k', hne, hk, hk'⟩ :=
      exists_kinds_of_disjoint ((h.explained _ he).schema (.inr (.inr hp))) hp
    obtain ⟨x, hx, hx'⟩ := Ontology.clashes_iff.1 hclash
    rw [hk] at hx
    rw [hk'] at hx'
    obtain ⟨n, hn, rfl⟩ := h.mem_closure_kind.1 hx
    obtain ⟨m, hm, heq⟩ := h.mem_closure_kind.1 hx'
    exact hdisjoint k k' hne hn (classIri_inj heq ▸ hm)

end Declared

lemma isConsistent_eq (h : Declared t settings b v) (hmode : v.mode = .rdfs) :
    b.isConsistent s v = .ok (Ontology.isConsistent (b.graph s v)) := by
  simp only [Base.isConsistent, hmode, Base.reasoner, h.rdfs]
  rfl

/-- **A program agrees with the vocabulary of the language** exactly if no two things of different
kinds have one name. -/
theorem isConsistent_eq_true_iff (hsource : source.build = .ok t) (hplain : source.Unannotated)
    (hs : settings.Conventional) (hb : Base.load t settings tree = .ok b)
    (hv : ∀ k, v.enabled k = decide (k ≠ .background)) (hmode : v.mode = .rdfs) (s : State) :
    b.isConsistent s v = .ok true ↔ NamesApart t := by
  have h : Declared t settings b v := declared_of_load hsource hplain hs hb hv
  rw [isConsistent_eq h hmode, Except.ok.injEq]
  exact h.isConsistent_iff

/-- The shapes agree with the vocabulary, whatever the state. -/
theorem isConsistent_eq_true_iff_shape : ∃ t b, shapeProgram.build = .ok t ∧
    shapeProgram.Unannotated ∧ (Config.Settings.default "").Conventional ∧
      Base.load t (Config.Settings.default "") .empty = .ok b ∧
      NamesApart t ∧ ∀ s, b.isConsistent s declaredView = .ok true := by
  have hplain : shapeProgram.Unannotated := by decide
  obtain ⟨t, b, hsource, hq, hs, hb⟩ := exists_load_of_build hplain
    (q := fun t => decide (NamesApart t)) (by decide +kernel)
  have hapart : NamesApart t := of_decide_eq_true hq
  refine ⟨t, b, hsource, hplain, hs, hb, hapart, fun s => ?_⟩
  exact (isConsistent_eq_true_iff hsource hplain hs hb (v := declaredView)
    (by rintro (_ | _ | _ | _) <;> rfl) rfl s).2 hapart

/-- A field and a method of one name. -/
def sharedProgram : Program.Source :=
  ⟨[⟨"A", none, [⟨"x", "Int", ""⟩], [⟨"x", [], "Int", some (.ret 1 (some (.lit (.int 1)))), false⟩],
    "", false⟩], some (.skip 1)⟩

/-- The program is accepted, and contradicts the vocabulary in every state. -/
theorem inconsistent_shared : ∃ t b, sharedProgram.build = .ok t ∧ sharedProgram.Unannotated ∧
    Base.load t (Config.Settings.default "") .empty = .ok b ∧
      ∀ s, b.isConsistent s declaredView = .ok false := by
  have hplain : sharedProgram.Unannotated := by decide
  obtain ⟨t, b, hsource, hq, hs, hb⟩ := exists_load_of_build hplain
    (q := fun t => decide (¬ NamesApart t)) (by decide +kernel)
  have h : Declared t (.default "") b declaredView :=
    declared_of_load hsource hplain hs hb (by rintro (_ | _ | _ | _) <;> rfl)
  refine ⟨t, b, hsource, hplain, hb, fun s => ?_⟩
  rw [isConsistent_eq h rfl, Except.ok.injEq, ← Bool.not_eq_true, h.isConsistent_iff]
  exact of_decide_eq_true hq

end Semlift.Knowledge
