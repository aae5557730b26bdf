import Mathlib.Data.Set.Finite.Basic
import Semlift.Proofs.Lift.Subject

/-!
Guards for predicates. The predicates of a class are collected from its fields and its template as
it is written. Filled in, a template has no other predicates, with one exception: where it has the
instance itself for a predicate, it gets the name of the instance, which is not among those
collected. So the guard leaves nothing out exactly if no class has such a template, unless a
predicate that stands for a field opens the class to every predicate.
-/

namespace Semlift.Lift

open Semlift.Program Semlift.Rdf Semlift.Store

variable {l : Lifter} {t : ClassTable} {o : Object} {T : Template} {x y : Triple} {c : String}
  {self : Term} {value : String → Option Term} {blankPrefix : String}

/-- The instance itself stands in the place of a predicate. -/
def Template.SelfPredicate (T : Template) : Prop := ∃ x ∈ T.triples, x.predicate = .iri selfIri

/-! ### Predicates of templates -/

/-- What the place of a predicate can be filled with. -/
lemma predicate_of_fillTriple (h : Template.fillTriple self value blankPrefix x = some y) :
    x.predicate = .iri selfIri ∨ (Template.fieldName? x.predicate.content).isSome ∨
      y.predicate = x.predicate := by
  obtain ⟨-, hp, -, -, hi⟩ := Template.fillTriple_eq_some.1 h
  cases hx : x.predicate with
  | iri name =>
    rw [hx, Template.fillTerm] at hp
    split at hp
    · rename_i hself
      exact .inl (by rw [hself])
    · split at hp
      · rename_i field hf
        exact .inr (.inl (by simp [Term.content, hf]))
      · exact .inr (.inr (Option.some.inj hp).symm)
  | blank label =>
    rw [hx, Template.fillTerm, Option.some.injEq] at hp
    simp [← hp, Term.isIri] at hi
  | literal lexical datatype language =>
    rw [hx, Template.fillTerm, Option.some.injEq] at hp
    simp [← hp, Term.isIri] at hi

/-- A filled triple with another predicate than the instance is accounted for. -/
lemma mem_templatePredicates (hx : x ∈ T.triples) (hself : x.predicate ≠ .iri selfIri)
    (h : Template.fillTriple self value blankPrefix x = some y) :
    anyPredicate ∈ Lifter.templatePredicates T ∨
      y.predicate.content ∈ Lifter.templatePredicates T := by
  rcases predicate_of_fillTriple h with hp | hp | hp
  · exact absurd hp hself
  · exact .inl (List.mem_map.2 ⟨x, hx, if_pos hp⟩)
  · by_cases hf : (Template.fieldName? x.predicate.content).isSome
    · exact .inl (List.mem_map.2 ⟨x, hx, if_pos hf⟩)
    · exact .inr (List.mem_map.2 ⟨x, hx, by rw [if_neg hf, hp]⟩)

namespace Lifter

/-! ### What is collected -/

lemma mem_predicatesOf_of_field {f : FieldInfo} (hf : f ∈ l.table.fields o.ref.className)
    (hx : x ∈ l.fieldTriples o f) : x.predicate.content ∈ l.predicatesOf o.ref.className := by
  simp only [predicatesOf, List.cons_append, List.mem_cons, List.mem_append, List.mem_flatMap,
    List.mem_map, Option.mem_toList]
  refine .inr (.inl ⟨f, hf, ?_⟩)
  unfold fieldTriples at hx
  split at hx
  · simp at hx
  · simp only [List.mem_cons, List.mem_map, Option.mem_toList] at hx
    rcases hx with rfl | ⟨q, hq, rfl⟩
    · exact .inl rfl
    · exact .inr ⟨q, hq, rfl⟩

lemma mem_predicatesOf_of_template {name : String} (hT : l.template? c = some T)
    (h : name ∈ templatePredicates T) : name ∈ l.predicatesOf c := by
  simp [predicatesOf, hT, h]

lemma mayHave_of_any {q : Term} (h : anyPredicate ∈ l.predicatesOf c) : l.mayHave c q := by
  simp [mayHave, h]

lemma mayHave_of_mem {q : Term} (h : q.content ∈ l.predicatesOf c) : l.mayHave c q := by
  simp [mayHave, h]

/-- Where a template has the instance for a predicate, the class may have every predicate. -/
def SelfCovered (l : Lifter) : Prop :=
  ∀ c T, l.table.has c → l.template? c = some T → T.SelfPredicate →
    anyPredicate ∈ l.predicatesOf c

/-- **The collection is complete** but for predicates that stand for the instance. -/
theorem SelfCovered.mayHave (hl : l.SelfCovered) (hx : x ∈ l.objectTriples o) :
    l.mayHave o.ref.className x.predicate := by
  by_cases hc : l.table.has o.ref.className
  · simp only [objectTriples, List.cons_append, List.mem_cons, List.mem_append,
      List.mem_flatMap] at hx
    rcases hx with rfl | ⟨f, hf, hx⟩ | hx
    · exact mayHave_of_mem (by simp [predicatesOf, rdfType, Term.content])
    · exact mayHave_of_mem (mem_predicatesOf_of_field hf hx)
    · unfold templateTriples at hx
      split at hx
      · simp at hx
      · rename_i T hT
        obtain ⟨y, hy, hfill⟩ := List.mem_filterMap.1 hx
        by_cases hself : y.predicate = .iri selfIri
        · exact mayHave_of_any (hl _ T hc hT ⟨y, hy, hself⟩)
        · rcases mem_templatePredicates hy hself hfill with h | h
          · exact mayHave_of_any (mem_predicatesOf_of_template hT h)
          · exact mayHave_of_mem (mem_predicatesOf_of_template hT h)
  · simp [Lifter.mayHave, hc]

/-! ### The guard -/

/-- Nothing is left out if all predicates are accounted for. -/
lemma stateSource_predicate {s : State} {p : TriplePattern}
    (h : ∀ o, ∀ x ∈ l.objectTriples o, l.mayHave o.ref.className x.predicate)
    (hs : p.subject = none) (hp : p.predicate.isSome) :
    l.stateSource s true p = l.stateSource s false p := by
  obtain ⟨q, hq⟩ := Option.isSome_iff_exists.1 hp
  simp only [stateSource, candidates, hs, hq, Bool.not_true, Bool.false_eq_true, if_false,
    Bool.not_false, if_true, List.filter_append]
  congr 1
  refine filter_flatMap_filter fun o _ ho => List.filter_eq_nil_iff.2 fun x hx hc => ?_
  rw [(covers_iff.1 hc).2.1 q hq, h o x hx] at ho
  simp at ho

/-! ### Instances that are left out -/

/-- Some serial number gives a name that is not in a list. -/
lemma exists_name_notMem (names : Namespaces) (c : String) (ns : List String) :
    ∃ n, (names.object ⟨n, c⟩).content ∉ ns := by
  by_contra h
  simp only [not_exists, not_not] at h
  have hinj : Function.Injective fun n => (names.object ⟨n, c⟩).content := by
    intro n m e
    have hname : names.object ⟨n, c⟩ = names.object ⟨m, c⟩ := congrArg Term.iri e
    exact Namespaces.object_eq_object_iff.1 hname
  exact Set.infinite_of_injective_forall_mem hinj h ns.finite_toSet

/-- Fields with which a term of a template can be filled in for every instance. -/
lemma exists_fields_fillTerm (l : Lifter) (a : Term) :
    ∃ fs, ∀ r blankPrefix, ∃ b,
      Template.fillTerm (l.names.object r) (l.fieldTerm? ⟨r, fs⟩) blankPrefix a = some b := by
  cases a with
  | blank label => exact ⟨[], fun _ _ => ⟨_, rfl⟩⟩
  | literal lexical datatype language => exact ⟨[], fun _ _ => ⟨_, rfl⟩⟩
  | iri name =>
    by_cases hself : name = selfIri
    · exact ⟨[], fun _ _ => ⟨_, by rw [Template.fillTerm, if_pos hself]⟩⟩
    · cases hf : Template.fieldName? name with
      | none => exact ⟨[], fun _ _ => ⟨_, by rw [Template.fillTerm, if_neg hself, hf]⟩⟩
      | some field =>
        refine ⟨[(field, .int 0)], fun r _ => ⟨.integer 0, ?_⟩⟩
        rw [Template.fillTerm, if_neg hself, hf]
        simp [fieldTerm?, Fields.get?, Namespaces.lift?]

/-- A template that has the instance for a predicate gives some instance a predicate that its class
was not known to have. -/
lemma exists_not_mayHave (hl : l.Proper t) (hc : l.table.has c) (hT : l.template? c = some T)
    (hself : T.SelfPredicate) (hany : anyPredicate ∉ l.predicatesOf c) :
    ∃ o, ∃ x ∈ l.objectTriples o, l.mayHave o.ref.className x.predicate = false := by
  obtain ⟨y, hy, hp⟩ := hself
  obtain ⟨n, hn⟩ := exists_name_notMem l.names c (l.predicatesOf c)
  obtain ⟨fs, hfs⟩ := exists_fields_fillTerm l y.object
  obtain ⟨b, hb⟩ := hfs ⟨n, c⟩ (ObjectRef.name ⟨n, c⟩ ++ "_t_")
  have hsubject : ∃ a, Template.fillTerm (l.names.object ⟨n, c⟩) (l.fieldTerm? ⟨⟨n, c⟩, fs⟩)
      (ObjectRef.name ⟨n, c⟩ ++ "_t_") y.subject = some a ∧ a.isLiteral = false := by
    rcases hl.template? hT y hy with h | h
    · exact ⟨_, by rw [h, Template.fillTerm, if_pos rfl], rfl⟩
    · cases hs : y.subject with
      | blank label => exact ⟨_, rfl, rfl⟩
      | _ => simp [hs, Term.isBlank] at h
  obtain ⟨a, ha, hlit⟩ := hsubject
  refine ⟨⟨⟨n, c⟩, fs⟩, ⟨a, l.names.object ⟨n, c⟩, b⟩, ?_, ?_⟩
  · simp only [objectTriples, templateTriples, hT, Template.instantiate, List.mem_append,
      List.mem_filterMap]
    refine .inr ⟨y, hy, Template.fillTriple_eq_some.2 ⟨ha, ?_, hb, hlit, rfl⟩⟩
    rw [hp, Template.fillTerm, if_pos rfl]
  · simp [mayHave, hc, hany, hn]

/-- A state in which the guard leaves out an instance that has a triple. -/
lemma stateSource_ne_of_not_mayHave (hx : x ∈ l.objectTriples o)
    (hm : l.mayHave o.ref.className x.predicate = false) :
    l.stateSource { State.empty with heap := ⟨[o], 0⟩ } true ⟨none, some x.predicate, none⟩ ≠
      l.stateSource { State.empty with heap := ⟨[o], 0⟩ } false ⟨none, some x.predicate, none⟩ := by
  intro h
  have hmem : x ∈ l.stateSource { State.empty with heap := ⟨[o], 0⟩ } false
      ⟨none, some x.predicate, none⟩ := by
    simp [stateSource, candidates, TriplePattern.covers, TriplePattern.fits, hx]
  rw [← h] at hmem
  simp [stateSource, candidates, hm, State.empty] at hmem

/-- **When the guard for predicates is sound**: it leaves out no triple of any state, and every
predicate of an instance is one that its class may have, exactly if no template has the instance
itself for a predicate, unless its class may have every predicate. -/
theorem guarded_predicate_iff {names : Namespaces} {prefixes : Prefixes}
    (h : new t names prefixes = .ok l) :
    ((∀ s p, p.subject = none → p.predicate.isSome →
        l.stateSource s true p = l.stateSource s false p) ↔ l.SelfCovered) ∧
      ((∀ o, ∀ x ∈ l.objectTriples o, l.mayHave o.ref.className x.predicate) ↔
        l.SelfCovered) := by
  have hl := proper_of_new h
  have hcovered : (∀ o, ∀ x ∈ l.objectTriples o, l.mayHave o.ref.className x.predicate) →
      l.SelfCovered := by
    intro hm c T hc hT hself
    by_contra hany
    obtain ⟨o, x, hx, hno⟩ := exists_not_mayHave hl hc hT hself hany
    rw [hm o x hx] at hno
    simp at hno
  refine ⟨⟨fun hs => hcovered fun o x hx => ?_, fun hc s p => ?_⟩, hcovered, fun hc o x => ?_⟩
  · by_contra hno
    exact stateSource_ne_of_not_mayHave hx (Bool.not_eq_true _ ▸ hno) (hs _ _ rfl rfl)
  · exact stateSource_predicate fun o x => hc.mayHave
  · exact hc.mayHave

/-- The template of a box has fixed predicates only, so its guard leaves nothing out. -/
theorem guarded_predicate_box :
    ∃ t l, boxProgram.build = .ok t ∧
      new t ⟨"urn:prog:", "urn:run:", "urn:smol:", "urn:dom:"⟩ .empty = .ok l ∧
      l.SelfCovered ∧ ∀ s p, p.subject = none → p.predicate.isSome →
        l.stateSource s true p = l.stateSource s false p := by
  obtain ⟨t, l, hb, hl, hrun⟩ := exists_new_of_build boxProgram
    ⟨"urn:prog:", "urn:run:", "urn:smol:", "urn:dom:"⟩ .empty (fun l => l.templates)
    [("Box", ⟨[⟨.blank "b0", .iri "urn:size", .iri "urn:smol:field:size"⟩,
      ⟨.iri selfIri, .iri "urn:holds", .blank "b0"⟩]⟩)] (by decide +kernel)
  have hc : l.SelfCovered := by
    rintro c T - hT ⟨x, hx, hp⟩
    obtain ⟨e, he, rfl⟩ := mem_templates_of_template? hT
    rw [hrun, List.mem_singleton] at he
    subst he
    simp only [List.mem_cons, List.not_mem_nil, or_false] at hx
    rcases hx with rfl | rfl <;> simp [selfIri] at hp
  exact ⟨t, l, hb, hl, hc, (guarded_predicate_iff hl).1.2 hc⟩

/-- The instances of a class are related to something by themselves. -/
def selfProgram : Program.Source :=
  ⟨[⟨"A", none, [⟨"x", "Int", ""⟩], [], "<urn:smol:self> <urn:x:o>", false⟩],
    some (.create 1 (.var "a") "A" [.lit (.int 1)])⟩

/-- The objects after the only step of the program. -/
def selfState : State :=
  { State.empty with heap := ⟨[⟨⟨0, entryClass⟩, []⟩, ⟨⟨1, "A"⟩, [("x", .int 1)]⟩], 2⟩ }

/-- The guard leaves out the triple with the instance for a predicate. -/
theorem guarded_predicate_self :
    ∃ t l, selfProgram.build = .ok t ∧
      new t ⟨"urn:prog#", "urn:run#", "urn:smol#", "urn:dom#"⟩ .empty = .ok l ∧
      l.stateSource selfState true ⟨none, some (.iri "urn:run#obj1"), none⟩ = [] ∧
      l.stateSource selfState false ⟨none, some (.iri "urn:run#obj1"), none⟩ =
        [⟨.iri "urn:run#obj1", .iri "urn:run#obj1", .iri "urn:x:o"⟩] := by
  obtain ⟨t, l, hb, hl, hrun⟩ := exists_new_of_build selfProgram
    ⟨"urn:prog#", "urn:run#", "urn:smol#", "urn:dom#"⟩ .empty
    (fun l => (l.stateSource selfState true ⟨none, some (.iri "urn:run#obj1"), none⟩,
      l.stateSource selfState false ⟨none, some (.iri "urn:run#obj1"), none⟩))
    ([], [⟨.iri "urn:run#obj1", .iri "urn:run#obj1", .iri "urn:x:o"⟩]) (by decide +kernel)
  exact ⟨t, l, hb, hl, Prod.mk.inj hrun⟩

end Lifter

end Semlift.Lift
