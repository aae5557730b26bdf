import Semlift.Proofs.Knowledge.Conventional
import Semlift.Proofs.Ontology.Closure
import Semlift.Proofs.Ontology.Monotone
import Semlift.Proofs.Program.Forest

/-!
What a program without annotations entails under the usual names. Types are explained by the program:
a member of a program's class is an object of it or of a class below it, and what has one of the kinds
that the language declares disjoint is declared as such. Superclasses are those of the class table,
and the rest of the schema is the core vocabulary's. The rules of the closure keep all this.
-/

namespace Semlift.Knowledge

open Relation Semlift.Rdf Semlift.Program Semlift.Lift Semlift.Store
open Semlift.Ontology (rdfType subClassOf subPropertyOf domain range disjointWith nothing Closed)

section

variable (t : ClassTable) (settings : Config.Settings) (s : State)

/-- What a type says of the program. -/
structure Typed (x c : Term) : Prop where
  member : ∀ n, c = settings.namespaces.classIri n →
    ∃ o ∈ s.heap.objects, ReflTransGen t.Extends o.ref.className n ∧
      x = settings.namespaces.object o.ref
  declared : ∀ k : Kind, c = usualWord k.word →
    ∃ n ∈ namesOf t k, x = settings.namespaces.classIri n
  proper : c ≠ nothing

/-- What a triple says of the program. -/
structure Explained (x : Triple) : Prop where
  type : x.predicate = rdfType → Typed t settings s x.subject x.object
  subClass : x.predicate = subClassOf → ∃ a b, TransGen t.Extends a b ∧
    x.subject = settings.namespaces.classIri a ∧ x.object = settings.namespaces.classIri b
  subProperty : x.predicate ≠ subPropertyOf
  schema : x.predicate = domain ∨ x.predicate = range ∨ x.predicate = disjointWith →
    x ∈ usualCore.triples
  domain : ∀ c, ⟨x.predicate, domain, c⟩ ∈ usualCore.triples → Typed t settings s x.subject c
  range : ∀ c, ⟨x.predicate, range, c⟩ ∈ usualCore.triples → x.object.isLiteral = false →
    Typed t settings s x.object c

end

variable {t : ClassTable} {settings : Config.Settings} {s : State} {x y c p : Term} {e : Triple}
  {g : Graph} {a b n : String} {o : Object} {k k' : Kind}

/-! ### Types -/

lemma kind_inj (h : usualWord k.word = usualWord k'.word) : k = k' := by
  revert h
  cases k <;> cases k' <;> decide

lemma typed_of_foreign (hs : settings.Conventional) (hc : Foreign c) : Typed t settings s x c where
  member _ h := absurd h.symm (classIri_ne hs hc.1)
  declared k h := absurd (h ▸ List.mem_map_of_mem k.mem_all) hc.2.1
  proper := hc.2.2

lemma typed_classIri (hs : settings.Conventional) (ho : o ∈ s.heap.objects)
    (h : ReflTransGen t.Extends o.ref.className n) :
    Typed t settings s (settings.namespaces.object o.ref) (settings.namespaces.classIri n) where
  member _ hn := ⟨o, ho, classIri_inj hn ▸ h, rfl⟩
  declared k hk := absurd hk (classIri_ne hs outside_word)
  proper := classIri_ne hs (by decide)

lemma typed_word (hs : settings.Conventional) (hn : n ∈ namesOf t k) :
    Typed t settings s (settings.namespaces.classIri n) (usualWord k.word) where
  member _ h := absurd h.symm (classIri_ne hs outside_word)
  declared _ h := ⟨n, kind_inj h ▸ hn, rfl⟩
  proper := by cases k <;> decide

/-! ### Triples -/

lemma not_schema (hp : ∀ w ∈ typedWords, p ≠ usualWord w) :
    ⟨p, domain, c⟩ ∉ usualCore.triples ∧ ⟨p, range, c⟩ ∉ usualCore.triples := by
  constructor <;> intro h
  · obtain ⟨w, hw, heq⟩ := exists_typedWord h (.inl rfl)
    exact hp w hw heq
  · obtain ⟨w, hw, heq⟩ := exists_typedWord h (.inr rfl)
    exact hp w hw heq

lemma schema_ne_word : ∀ p ∈ schemaPredicates, ∀ w ∈ typedWords, p ≠ usualWord w := by
  decide +kernel

lemma explained_of_type (h : Typed t settings s x c) :
    Explained t settings s ⟨x, rdfType, c⟩ := by
  have hne : rdfType ∉ [subClassOf, subPropertyOf, domain, range, disjointWith] := by decide
  have hschema {c : Term} := not_schema (c := c) (schema_ne_word rdfType (by decide))
  simp only [List.mem_cons, List.not_mem_nil, or_false, not_or] at hne
  exact {
    type := fun _ => h
    subClass := fun h => absurd h hne.1
    subProperty := hne.2.1
    schema := fun h => absurd h (by simp [hne])
    domain := fun _ h => absurd h hschema.1
    range := fun _ h => absurd h hschema.2 }

lemma explained_of_subClass (h : TransGen t.Extends a b) : Explained t settings s
    ⟨settings.namespaces.classIri a, subClassOf, settings.namespaces.classIri b⟩ := by
  have hne : subClassOf ∉ [rdfType, subPropertyOf, domain, range, disjointWith] := by decide
  have hschema {c : Term} := not_schema (c := c) (schema_ne_word subClassOf (by decide))
  simp only [List.mem_cons, List.not_mem_nil, or_false, not_or] at hne
  exact {
    type := fun h => absurd h hne.1
    subClass := fun _ => ⟨a, b, h, rfl, rfl⟩
    subProperty := hne.2.1
    schema := fun h => absurd h (by simp [hne])
    domain := fun _ h => absurd h hschema.1
    range := fun _ h => absurd h hschema.2 }

lemma explained_of_core (hs : settings.Conventional) (he : e ∈ usualCore.triples) :
    Explained t settings s e := by
  obtain ⟨hclass, hproperty, hwords, htype⟩ := core_predicate he
  exact {
    type := fun h => typed_of_foreign hs (htype h)
    subClass := fun h => absurd h hclass
    subProperty := hproperty
    schema := fun _ => he
    domain := fun _ h => absurd h (not_schema hwords).1
    range := fun _ h => absurd h (not_schema hwords).2 }

/-- A triple whose predicate no rule is about, apart from domains and ranges. -/
lemma explained_of_other (hp : p ∉ schemaPredicates)
    (hdomain : ∀ c, ⟨p, domain, c⟩ ∈ usualCore.triples → Typed t settings s x c)
    (hrange : ∀ c, ⟨p, range, c⟩ ∈ usualCore.triples → Typed t settings s y c) :
    Explained t settings s ⟨x, p, y⟩ := by
  simp only [schemaPredicates, List.mem_cons, List.not_mem_nil, or_false, not_or] at hp
  obtain ⟨htype, hclass, hproperty, hdom, hran, hdisjoint⟩ := hp
  exact {
    type := fun h => absurd h htype
    subClass := fun h => absurd h hclass
    subProperty := hproperty
    schema := fun h => absurd h (by simp [hdom, hran, hdisjoint])
    domain := hdomain
    range := fun c h _ => hrange c h }

/-- **What is lifted is explained.** -/
lemma explained_of_stated (hs : settings.Conventional) (he : Stated t settings.namespaces s e) :
    Explained t settings s e := by
  cases he with
  | ofClass ho => exact explained_of_type (typed_classIri hs ho .refl)
  | @value _ _ n =>
    have houtside : ∀ p ∈ schemaPredicates, Outside p := by decide +kernel
    have hword : ∀ w ∈ typedWords, settings.namespaces.classIri n ≠ usualWord w :=
      fun w _ => classIri_ne hs outside_word
    exact explained_of_other (fun hmem => classIri_ne hs (houtside _ hmem) rfl)
      (fun _ h => absurd h (not_schema hword).1) fun _ h => absurd h (not_schema hword).2
  | @free _ _ w hw =>
    rw [word_eq hs]
    have hother : ∀ w ∈ freeWords, usualWord w ∉ schemaPredicates := by
      decide +kernel
    exact explained_of_other (hother w hw)
      (fun c h => typed_of_foreign hs (foreign_of_free hw h (.inl rfl) rfl))
      fun c h => typed_of_foreign hs (foreign_of_free hw h (.inr rfl) rfl)
  | kind hname =>
    rw [word_eq hs]
    exact explained_of_type (typed_word hs hname)
  | super h => exact explained_of_subClass (.single h)
  | part link ha hb =>
    rw [word_eq hs]
    refine explained_of_other (by cases link <;> decide) (fun c h => ?_) fun c h => ?_
    · obtain rfl : c = _ := (core_link link h rfl).1 rfl
      exact typed_word hs ha
    · obtain rfl : c = _ := (core_link link h rfl).2 rfl
      exact typed_word hs hb

/-- **The rules keep explanations.** -/
lemma closed_explained (hs : settings.Conventional) : Closed {e | Explained t settings s e} where
  type x c d hx hc := by
    obtain ⟨a, b, hchain, ha, rfl⟩ := hc.subClass rfl
    obtain ⟨o, ho, hclass, rfl⟩ := (hx.type rfl).member a ha
    exact explained_of_type (typed_classIri hs ho (hclass.trans hchain.to_reflTransGen))
  subClass b c d hb hc := by
    obtain ⟨n, m, hnm, rfl, rfl⟩ := hb.subClass rfl
    obtain ⟨m', l, hml, hm, rfl⟩ := hc.subClass rfl
    obtain rfl := classIri_inj hm
    exact explained_of_subClass (hnm.trans hml)
  subProperty _ _ _ hp := absurd rfl hp.subProperty
  inherit _ _ _ _ _ hp := absurd rfl hp.subProperty
  domain x p y c hx hp := explained_of_type (hx.domain c (hp.schema (.inl rfl)))
  range x p y c hx hp hl := explained_of_type (hx.range c (hp.schema (.inr (.inl rfl))) hl)

/-! ### The graph of a program -/

/-- A loaded program without annotations under the usual names, seen without the background. -/
structure Declared (t : ClassTable) (settings : Config.Settings) (b : Base) (v : View) : Prop where
  usual : settings.Conventional
  lifter : b.lifter = .plain t settings.namespaces
  core : b.core = usualCore
  rdfs : b.rdfs = some .schema
  enabled : ∀ k, v.enabled k = decide (k ≠ .background)

variable {b : Base} {v : View} {source : Program.Source} {tree : Files.Tree}

lemma declared_of_load (hsource : source.build = .ok t) (hplain : source.Unannotated)
    (hs : settings.Conventional) (hb : Base.load t settings tree = .ok b)
    (hv : ∀ k, v.enabled k = decide (k ≠ .background)) : Declared t settings b v := by
  obtain ⟨background, -, rfl⟩ := (load_iff hs (models_of_build hsource hplain)).1 hb
  exact ⟨hs, rfl, rfl, rfl, hv⟩

namespace Declared

lemma mem_graph (h : Declared t settings b v) : e ∈ (b.graph s v).triples ↔
    b.Gives s e .heap ∨ b.Gives s e .classTable ∨ b.Gives s e .coreVocabulary := by
  rw [Base.mem_graph]
  constructor
  · rintro ⟨k, hk, hgives⟩
    cases k with
    | heap => exact .inl hgives
    | classTable => exact .inr (.inl hgives)
    | coreVocabulary => exact .inr (.inr hgives)
    | background => simp [h.enabled] at hk
  · rintro (hgives | hgives | hgives)
    exacts [⟨.heap, by simp [h.enabled], hgives⟩, ⟨.classTable, by simp [h.enabled], hgives⟩,
      ⟨.coreVocabulary, by simp [h.enabled], hgives⟩]

/-- **All that is entailed is explained.** -/
theorem explained (h : Declared t settings b v) :
    ∀ e ∈ (Ontology.closure (b.graph s v)).triples, Explained t settings s e := by
  refine Ontology.closure_subset (closed_explained h.usual) fun e he => ?_
  rcases h.mem_graph.1 he with (⟨o, ho, he⟩ | ⟨u, -, he⟩) | ⟨c, hc, he⟩ | he
  · rw [h.lifter] at he
    exact explained_of_stated h.usual (stated_of_mem_objectTriples ho he)
  · rw [h.lifter] at he
    exact explained_of_stated h.usual (stated_of_mem_unitTriples he)
  · rw [h.lifter] at hc he
    exact explained_of_stated h.usual (stated_of_mem_classTriples hc he)
  · rw [Base.Gives, h.core] at he
    exact explained_of_core h.usual he

lemma mem_closure_of_core (h : Declared t settings b v) (he : e ∈ usualCore.triples) :
    e ∈ (Ontology.closure (b.graph s v)).triples := by
  refine Ontology.subset_closure (h.mem_graph.2 (.inr (.inr ?_)))
  rwa [Base.Gives, h.core]

lemma mem_closure_of_class (h : Declared t settings b v) {c : String} (hc : c ∈ t.names)
    (he : e ∈ (Lifter.plain t settings.namespaces).classTriples c) :
    e ∈ (Ontology.closure (b.graph s v)).triples := by
  refine Ontology.subset_closure (h.mem_graph.2 (.inr (.inl ⟨c, ?_, ?_⟩)))
  · rwa [h.lifter]
  · rwa [h.lifter]

/-- The members of a program's class are the objects of it and of the classes below it. -/
lemma mem_closure_member (h : Declared t settings b v) :
    ⟨x, rdfType, settings.namespaces.classIri n⟩ ∈ (Ontology.closure (b.graph s v)).triples ↔
      ∃ o ∈ s.heap.objects, ReflTransGen t.Extends o.ref.className n ∧
        x = settings.namespaces.object o.ref := by
  constructor
  · exact fun hx => ((h.explained _ hx).type rfl).member n rfl
  · rintro ⟨o, ho, hchain, rfl⟩
    induction hchain with
    | refl =>
      refine Ontology.subset_closure (h.mem_graph.2 (.inl (.inl ⟨o, ho, ?_⟩)))
      rw [h.lifter]
      exact List.mem_cons_self
    | @tail n m _ hnm ih =>
      have hedge : ⟨settings.namespaces.classIri n, subClassOf, settings.namespaces.classIri m⟩ ∈
          (Ontology.closure (b.graph s v)).triples :=
        h.mem_closure_of_class (ClassTable.mem_names_of_extends hnm) (super_mem_classTriples hnm)
      exact Ontology.closed_closure.type _ _ _ ih hedge

end Declared

/-- Shapes, and squares among them, with members of each kind. -/
def shapeProgram : Program.Source :=
  ⟨[⟨"Shape", none, [⟨"size", "Int", ""⟩],
      [⟨"grow", [⟨"by", "Int"⟩], "Int", some (.ret 1 (some (.var "by"))), false⟩], "", false⟩,
    ⟨"Square", some "Shape", [⟨"corner", "Int", ""⟩], [], "", false⟩], some (.skip 1)⟩

/-- One square. -/
def shapeState : State :=
  { State.empty with heap := ⟨[⟨⟨0, entryClass⟩, []⟩, ⟨⟨1, "Square"⟩, [("size", .int 1)]⟩], 2⟩ }

/-- Everything but the background, with reasoning. -/
def declaredView : View :=
  { View.default with enabled := (· != .background), mode := .rdfs }

lemma exists_load_of_build (hplain : source.Unannotated)
    {q : ClassTable → Bool} (hq : source.build.toOption.any q) : ∃ t b, source.build = .ok t ∧ q t ∧
      (Config.Settings.default "").Conventional ∧
      Base.load t (Config.Settings.default "") .empty = .ok b := by
  obtain ⟨t, hsource, hq⟩ := exists_ok_of_any hq
  have hs := Config.Settings.conventional_of_extra_eq_nil (s := .default "") rfl rfl rfl
  obtain ⟨b, hb⟩ : ∃ b, Base.load t (.default "") .empty = .ok b :=
    exists_load hs (models_of_build hsource hplain) rfl
  exact ⟨t, b, hsource, hq, hs, hb⟩

end Semlift.Knowledge
