import Semlift.Lower.Classify
import Semlift.Program.Build
import Semlift.Proofs.Except
import Semlift.Proofs.Knowledge.Reasoning
import Semlift.Proofs.Lift.Predicate
import Semlift.Proofs.Query.Join

/-!
Without guards a lifted source chooses from all triples of a state or of a class table, so it can be
asked pattern by pattern or through a copy of all that it gives: no answer depends on which.

The members of a class, asked in two ways. A question for the members of a class looks into the
graph, a query asks the sources. For a pattern with the type predicate and no subject, no guard
leaves anything out and no copy changes anything: what the sources give is what the graph has. So
the members of a class are the answers to the query for its instances, in the same order.
-/

namespace Semlift

open Semlift.Rdf Semlift.Store

/-! ### Asking lifted sources directly -/

namespace Lift.Lifter

variable {l : Lifter} {s : State}

lemma filters_any (ts : List Triple) : Source.Filters fun p => ts.filter p.covers := by
  intro p
  dsimp only
  rw [List.filter_eq_self.2 fun t _ => TriplePattern.any_covers t]

lemma filters_stateSource : (l.stateSource s false).Filters :=
  filters_any (s.heap.objects.flatMap l.objectTriples ++ s.simulation.flatMap l.unitTriples)

lemma filters_tableSource : (l.tableSource false).Filters :=
  filters_any (l.table.names.flatMap l.classTriples)

end Lift.Lifter

namespace Knowledge.Base

variable {b : Base} {s : State} {v : View}

lemma agree_lifted {kind : LiftedKind} {source : Source} {d : LiftedKind → Bool}
    (h : source.Filters) : (lifted { v with direct := d } kind source).Agree
      (lifted v kind source) := by
  have hd : ∀ w : View, (lifted w kind source).Agree source := by
    intro w
    unfold lifted
    split
    · exact fun _ => rfl
    · exact h.agree_snapshot
  exact fun p => (hd _ p).trans (hd _ p).symm

lemma source_direct (hv : ∀ k, v.guarded k = false) (d : LiftedKind → Bool) :
    b.source s { v with direct := d } = b.source s v := by
  refine Source.union_congr fun k _ => ?_
  cases k with
  | heap =>
    simp only [sourceOf, hv]
    exact agree_lifted Lift.Lifter.filters_stateSource
  | classTable =>
    simp only [sourceOf, hv]
    exact agree_lifted Lift.Lifter.filters_tableSource
  | coreVocabulary | background => exact fun _ => rfl

/-- **Asking directly changes no answer** when nothing is guarded: the graph, every query and every
question for members give the same. -/
theorem answers_direct (hv : ∀ k, v.guarded k = false) (d : LiftedKind → Bool) :
    b.graph s { v with direct := d } = b.graph s v ∧
      (∀ text, b.query s { v with direct := d } text = b.query s v text) ∧
      ∀ text, b.members s { v with direct := d } text = b.members s v text := by
  have hs := source_direct (b := b) (s := s) hv d
  have hg : b.graph s { v with direct := d } = b.graph s v := congrArg Source.snapshot hs
  have hq : b.queried s { v with direct := d } = b.queried s v := by
    unfold queried
    rw [hs, hg]
  refine ⟨hg, fun text => ?_, fun text => ?_⟩
  · unfold query
    rw [hq]
  · unfold members
    rw [hg]

/-- What is known without a program: the built-in classes and the objects of a state. -/
def listBase : Base :=
  ⟨.empty, "",
    ⟨⟨[Program.listInfo, Program.entryInfo], [], none⟩, ⟨"urn:p:", "urn:r:", "urn:l:", ""⟩, [], []⟩,
    .empty, .empty, none, none, .empty⟩

/-- A list of two cells with the same content. -/
def listState : State :=
  { State.empty with heap := (Lower.buildList .empty [.int 1, .int 1]).2 }

/-- Copies of both sources answer as the sources do. -/
theorem answers_direct_list :
    ∃ v : View, (∀ k, v.guarded k = false) ∧ (listBase.graph listState v).size = 15 ∧
      listBase.graph listState { v with direct := fun _ => false } = listBase.graph listState v ∧
      (∀ text, listBase.query listState { v with direct := fun _ => false } text =
        listBase.query listState v text) ∧
      ∀ text, listBase.members listState { v with direct := fun _ => false } text =
        listBase.members listState v text := by
  refine ⟨{ View.default with guarded := fun _ => false }, fun _ => rfl, ?_,
    answers_direct (fun _ => rfl) _⟩
  decide +kernel

end Knowledge.Base

/-! ### Asking for the members of a class -/

namespace Rdf.Source

variable {S : Source} {p : TriplePattern}

/-- For this pattern the source chooses from all that it gives. -/
def FiltersAt (S : Source) (p : TriplePattern) : Prop := S p = (S .any).filter p.covers

lemma filtersAt_matching (g : Graph) : FiltersAt g.matching p := by
  unfold FiltersAt
  rw [Graph.matching_eq_filter, Graph.matching_eq_filter,
    List.filter_eq_self.2 fun x _ => TriplePattern.any_covers x]

lemma filtersAt_union {α : Type} {ks : List α} {f : α → Source}
    (h : ∀ k ∈ ks, (f k).FiltersAt p) : (union (ks.map f)).FiltersAt p := by
  have hchosen : (ks.flatMap fun k => f k p) =
      (ks.flatMap fun k => f k .any).filter p.covers := by
    rw [List.filter_flatMap]
    exact List.flatMap_congr fun k hk => h k hk
  simp only [FiltersAt, union, List.flatMap_map]
  rw [hchosen, filter_eraseDups]

end Rdf.Source

namespace Lift.Lifter

variable {l : Lifter} {s : State} {guarded : Bool} {p : TriplePattern}

/-- Every class may have the type predicate. -/
lemma mayHave_rdfType (className : String) : l.mayHave className rdfType :=
  mayHave_of_mem (by simp [predicatesOf, rdfType, Term.content])

lemma candidates_rdfType (hs : p.subject = none) (hp : p.predicate = some rdfType) :
    l.candidates s guarded p = (s.heap.objects, s.simulation) := by
  unfold candidates
  split
  · rfl
  · simp only [hs, hp, mayHave_rdfType, List.filter_true]

lemma filtersAt_stateSource (hs : p.subject = none) (hp : p.predicate = some rdfType) :
    (l.stateSource s guarded).FiltersAt p := by
  have hany : l.candidates s guarded .any = (s.heap.objects, s.simulation) := by
    cases guarded <;> rfl
  simp only [Source.FiltersAt, stateSource, candidates_rdfType hs hp, hany]
  rw [List.filter_eq_self.2 fun x _ => TriplePattern.any_covers x]

lemma filtersAt_tableSource (hs : p.subject = none) : (l.tableSource guarded).FiltersAt p := by
  have hany : l.tableSource guarded .any = l.table.names.flatMap l.classTriples := by
    cases guarded <;> exact List.filter_eq_self.2 fun x _ => TriplePattern.any_covers x
  simp only [Source.FiltersAt, hany]
  simp only [tableSource, hs]

end Lift.Lifter

namespace Knowledge.Base

open Semlift.Lift (Lifter)

variable {b : Base} {s : State} {v : View} {p : TriplePattern}

lemma filtersAt_lifted {kind : LiftedKind} {S : Source} (h : S.FiltersAt p) :
    (lifted v kind S).FiltersAt p := by
  unfold lifted
  split
  · exact h
  · exact Source.filtersAt_matching _

lemma filtersAt_source (hs : p.subject = none) (hp : p.predicate = some Lifter.rdfType) :
    (b.source s v).FiltersAt p := by
  refine Source.filtersAt_union fun k _ => ?_
  cases k with
  | heap => exact filtersAt_lifted (Lifter.filtersAt_stateSource hs hp)
  | classTable => exact filtersAt_lifted (Lifter.filtersAt_tableSource hs)
  | coreVocabulary | background => exact Source.filtersAt_matching _

/-- **Without a subject and for the type predicate** the sources give what the graph has. -/
lemma source_eq_matching (hs : p.subject = none) (hp : p.predicate = some Lifter.rdfType) :
    b.source s v p = (b.graph s v).matching p := by
  have hnodup : (b.source s v .any).eraseDups = b.source s v .any := eraseDups_eraseDups _
  rw [filtersAt_source hs hp, Graph.matching_eq_filter, graph, Source.snapshot,
    Graph.triples_ofList, hnodup]

end Knowledge.Base

namespace Ontology

variable {g : Graph} {cls : String}

/-- A subject is found once for a predicate and an object. -/
lemma nodup_subjects {predicate object : Term} : (g.subjects predicate object).Nodup := by
  unfold Graph.subjects
  rw [Graph.matching_eq_filter]
  refine List.Nodup.map_on (fun x hx y hy hxy => ?_) (g.nodup.filter _)
  have hcovered : ∀ z ∈ g.triples.filter
      (TriplePattern.covers ⟨none, some predicate, some object⟩),
      z = ⟨z.subject, predicate, object⟩ := by
    intro z hz
    obtain ⟨-, hp, ho⟩ := Lift.Lifter.covers_iff.1 (List.mem_filter.1 hz).2
    rw [hp _ rfl, ho _ rfl]
  rw [hcovered x hx, hcovered y hy, hxy]

/-- The members of a class are the subjects of the triples that give it. -/
lemma members_named (hcls : cls ≠ Vocabulary.owlThing) :
    (ClassExpr.named cls).members g = g.subjects rdfType (.iri cls) := by
  rw [ClassExpr.members, if_neg hcls, eraseDups_of_nodup nodup_subjects]

end Ontology

namespace Query

variable {q : Select} {name : String} {cls : Term} {S : Source}

/-- The query for the instances of a class, and for nothing else. -/
structure Select.AsksType (q : Select) (name : String) (cls : Term) : Prop where
  plain : q.Plain
  shows : q.projection = .these [name]
  pattern : q.patterns = [⟨.var name, .term Ontology.rdfType, .term cls⟩]

lemma Select.AsksType.eval (hq : q.AsksType name cls) :
    q.eval S = ⟨[name], (S ⟨none, some Ontology.rdfType, some cls⟩).map
      fun x => [some x.subject]⟩ := by
  have hcolumns : q.columns = [name] := by rw [columns, hq.shows]
  have hbind : ∀ x : Triple, Pattern.bind? ⟨.var name, .term Ontology.rdfType, .term cls⟩ [] x =
      some [(name, x.subject)] := fun _ => rfl
  have hjoin : join S q.patterns =
      (S ⟨none, some Ontology.rdfType, some cls⟩).map fun x => [(name, x.subject)] := by
    rw [hq.pattern, join, List.foldl_cons, List.foldl_nil, List.flatMap_singleton, Pattern.extend,
      funext hbind]
    exact congrFun List.filterMap_eq_map _
  have hrow : ∀ t : Term, row [name] [(name, t)] = [some t] := fun t => by
    simp [row, Binding.find?]
  simp only [Select.eval, Select.cut, hq.plain.distinct, hq.plain.offset, hq.plain.limit,
    hq.plain.solutions, hcolumns, hjoin, List.map_map, Function.comp_def, hrow,
    Bool.false_eq_true, if_false, Option.getD_none, List.drop_zero]

end Query

namespace Knowledge.Base

open Semlift.Ontology Semlift.Query

variable {b : Base} {s : State} {v : View} {text ask name cls : String} {q : Select}

/-- **Members and answers agree.** Without reasoning or with reasoning by the schema, the members of
a class other than that of everything are, one by one and in order, the only column of the answers
to the query for its instances, whatever sources are joined, guarded and copied. -/
theorem members_eq_answers (hv : v.mode = .off ∨ v.mode = .rdfs)
    (hb : v.mode = .rdfs → b.rdfs = some .schema) (hcls : cls ≠ Vocabulary.owlThing)
    (htext : ClassExpr.parse ⟨b.prefixes, b.domain⟩ text = .ok (.named cls))
    (hask : Query.parse ask b.prefixes = .ok q) (hq : q.AsksType name (.iri cls)) :
    ∃ members, b.members s v text = .ok members ∧
      b.query s v ask = .ok ⟨[name], members.map fun t => [some t]⟩ := by
  have hanswer : ∀ g : Graph,
      b.queried s v ⟨none, some rdfType, some (.iri cls)⟩ =
        g.matching ⟨none, some rdfType, some (.iri cls)⟩ →
      b.query s v ask =
        .ok ⟨[name], ((ClassExpr.named cls).members g).map fun t => [some t]⟩ := by
    intro g hg
    simp only [query, hask, hq.eval, hg, members_named hcls, Graph.subjects, List.map_map,
      Function.comp_def]
  rcases hv with hv | hv
  · refine ⟨(ClassExpr.named cls).members (b.graph s v), ?_, hanswer _ ?_⟩
    · simp only [members, htext, hv]
      rfl
    · rw [queried, hv]
      exact source_eq_matching rfl rfl
  · refine ⟨(ClassExpr.named cls).members (closure (b.graph s v)), ?_, hanswer _ ?_⟩
    · simp only [members, htext, hv, reasoner, hb hv]
      rfl
    · rw [queried, hv]

/-! ### A class with a subclass -/

/-- Animals, and dogs among them. -/
def dogTable : Program.ClassTable :=
  ⟨[⟨"Animal", none, false, [], []⟩, ⟨"Dog", some "Animal", false, [], []⟩, Program.listInfo,
    Program.entryInfo], [], none⟩

def dogBase : Base :=
  ⟨.empty, "", .plain dogTable ⟨"urn:p:", "urn:r:", "urn:l:", ""⟩, .empty, .empty, some .schema,
    none, .empty⟩

/-- A dog and another animal. -/
def dogState : State :=
  { State.empty with heap := ⟨[⟨⟨1, "Dog"⟩, []⟩, ⟨⟨2, "Animal"⟩, []⟩], 3⟩ }

def animalQuery : String :=
  "SELECT ?x WHERE \x7b ?x <" ++ Vocabulary.rdfType ++ "> <urn:p:Animal> . \x7d"

/-- The class that an expression names. -/
def namedClass? : ClassExpr → Option String
  | .named c => some c
  | _ => none

/-- By the schema the dog is an animal, too, whichever way one asks: with guards and without
copies. -/
theorem members_eq_answers_dog :
    dogBase.rdfs = some .schema ∧
      dogBase.members dogState (View.default.reasoning .rdfs) "<urn:p:Animal>" =
        .ok [.iri "urn:r:obj2", .iri "urn:r:obj1"] ∧
      dogBase.query dogState (View.default.reasoning .rdfs) animalQuery =
        .ok ⟨["x"], [[some (.iri "urn:r:obj2")], [some (.iri "urn:r:obj1")]]⟩ := by
  obtain ⟨e, he, hnamed⟩ := exists_ok_of_any
    (x := ClassExpr.parse ⟨dogBase.prefixes, dogBase.domain⟩ "<urn:p:Animal>")
    (p := fun e => namedClass? e == some "urn:p:Animal") (by decide +kernel)
  obtain rfl : e = .named "urn:p:Animal" := by
    cases e <;> simp [namedClass?] at hnamed
    rw [hnamed]
  obtain ⟨q, hq, hplain⟩ := exists_ok_of_any (x := Query.parse animalQuery dogBase.prefixes)
    (p := fun q => q.distinct == false && q.filters.isEmpty && q.order.isEmpty &&
      q.limit.isNone && q.offset.isNone && q.projection == .these ["x"] &&
      q.patterns == [⟨.var "x", .term rdfType, .term (.iri "urn:p:Animal")⟩])
    (by decide +kernel)
  simp only [Bool.and_eq_true, beq_iff_eq, List.isEmpty_iff, Option.isNone_iff_eq_none,
    and_assoc] at hplain
  obtain ⟨hd, hf, ho, hl, hoff, hproj, hpat⟩ := hplain
  obtain ⟨members, hmembers, hanswers⟩ := members_eq_answers (b := dogBase) (s := dogState)
    (v := View.default.reasoning .rdfs) (.inr rfl) (fun _ => rfl) (by decide) he hq
    ⟨⟨hd, hf, ho, hl, hoff⟩, hproj, hpat⟩
  have hlist : members = [.iri "urn:r:obj2", .iri "urn:r:obj1"] :=
    of_decide_eq_true (any_of_ok (p := fun ts => decide (ts = _)) hmembers (by decide +kernel))
  subst hlist
  exact ⟨rfl, hmembers, hanswers⟩

end Knowledge.Base

end Semlift
