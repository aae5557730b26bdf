import Mathlib.Data.List.Basic
import Semlift.Lift.Source
import Semlift.Proofs.Except
import Semlift.Proofs.Lift.Units
import Semlift.Proofs.Program.Accepted

/-!
Lifting without annotations. A program whose classes and fields say nothing of how they are lifted
has neither templates nor predicates of its own. What is lifted of it is of few forms: the class of
an object, the value of a field, the kind of a declared thing, the superclass of a class, a thing
and what it is a part of, and triples of words that say nothing of classes.
-/

namespace Semlift.Program

variable {p : Source} {t : ClassTable} {className : String} {f : FieldDecl} {c : ClassDecl}
  {l : Layout}

/-- No class and no field says how it is lifted. -/
def Source.Unannotated (p : Source) : Prop :=
  ∀ c ∈ p.classes, c.models = "" ∧ ∀ f ∈ c.fields, f.models = ""

instance {p : Source} : Decidable p.Unannotated :=
  inferInstanceAs (Decidable (∀ c ∈ p.classes, c.models = "" ∧ ∀ f ∈ c.fields, f.models = ""))

lemma models_addField {st : List FieldInfo × List (String × String) × List Flaw}
    (hf : f.models = "") : (addField className st f).2.1 = st.2.1 := by
  unfold addField
  dsimp only
  split
  · rfl
  · simp [hf]

lemma models_layOut (hc : c.models = "") (hf : ∀ f ∈ c.fields, f.models = "") :
    (layOut l c).models = l.models := by
  simp only [layOut, hc, show "".isEmpty = true from rfl, if_true]
  refine List.foldlRecOn (motive := fun st : List FieldInfo × List (String × String) × List Flaw =>
    st.2.1 = l.models) c.fields _ rfl fun st hst f hmem => ?_
  rw [models_addField (hf f hmem), hst]

/-- A program without annotations has a table without any. -/
lemma models_of_build (h : p.build = .ok t) (hp : p.Unannotated) : t.models = [] := by
  obtain ⟨-, -, -, ordered, ho, rfl, -, -⟩ := build_eq_ok h
  refine List.foldlRecOn (motive := fun l : Layout => l.models = []) ordered _ rfl
    fun l hl c hc => ?_
  obtain ⟨hmodels, hfields⟩ := hp c (mem_declared (mem_arrange ho hc)).1
  rw [models_layOut hmodels hfields, hl]

end Semlift.Program

namespace Semlift.Lift

open Semlift.Rdf Semlift.Program Semlift.Store

variable {t : ClassTable} {ns : Namespaces} {prefixes : Prefixes} {s : State} {o : Object}
  {u : SimUnit} {c : String} {x : Triple}

namespace Lifter

/-- The lifter of a table without annotations. -/
def plain (t : ClassTable) (ns : Namespaces) : Lifter := ⟨t, ns, [], []⟩

lemma modelsOf_eq_empty (h : t.models = []) {key : String} : t.modelsOf key = "" := by
  simp [ClassTable.modelsOf, h]

lemma addClass_plain (h : t.models = []) {c : ClassInfo} :
    addClass prefixes (plain t ns) c = .ok (plain t ns) := by
  have htemplate : readTemplate prefixes t c.name = .ok [] := by
    simp [readTemplate, ClassTable.classModels, modelsOf_eq_empty h]
  have hpredicates : c.fields.mapM (readPredicate prefixes t c.name) =
      .ok (c.fields.map fun _ => []) := by
    refine mapM_eq_ok.2 (List.forall₂_map_right_iff.2 (List.forall₂_same.2 fun f _ => ?_))
    simp [readPredicate, ClassTable.fieldModels, modelsOf_eq_empty h]
  simp [addClass, plain, htemplate, hpredicates, bind, Except.bind, pure, Except.pure]

/-- **Nothing is read** where nothing is annotated. -/
lemma new_eq_plain (h : t.models = []) : Lifter.new t ns prefixes = .ok (plain t ns) := by
  have hadd : ∀ c, addClass prefixes ⟨t, ns, [], []⟩ c = .ok ⟨t, ns, [], []⟩ :=
    fun _ => addClass_plain h
  unfold Lifter.new
  induction t.classes with
  | nil => rfl
  | cons c cs ih => rwa [List.foldlM_cons, hadd]

lemma templateTriples_plain : (plain t ns).templateTriples o = [] := by
  have hnone : (plain t ns).template? o.ref.className = none :=
    List.findSome?_eq_none_iff.2 fun _ _ => rfl
  rw [templateTriples, hnone]

/-- A field gives one triple, or none if it is null. -/
lemma fieldTriples_plain {f : FieldInfo} : (plain t ns).fieldTriples o f =
    ((plain t ns).fieldTerm? o f.name).toList.map fun v =>
      ⟨ns.object o.ref, ns.field f.declaring f.name, v⟩ := by
  unfold fieldTriples
  split
  · rename_i hnone
    rw [hnone, Option.toList_none, List.map_nil]
  · rename_i value hvalue
    rw [hvalue]
    rfl

end Lifter

/-! ### What is declared -/

/-- The kinds of things that a class table declares. -/
inductive Kind where
  | cls
  | field
  | method
  | parameter
  deriving DecidableEq

namespace Kind

def all : List Kind := [cls, field, method, parameter]

lemma mem_all (k : Kind) : k ∈ all := by
  cases k <;> decide

def word : Kind → String
  | cls => "Class"
  | field => "Field"
  | method => "Method"
  | parameter => "Parameter"

end Kind

/-- The local names of the things of a kind. A field is named by the class that declares it. -/
def namesOf (t : ClassTable) : Kind → List String
  | .cls => t.names
  | .field => t.names.flatMap fun c =>
      ((t.fields c).filter (·.declaring == c)).map fun f => c ++ "_" ++ f.name
  | .method => t.names.flatMap fun c => (t.methods c).map fun m => c ++ "_" ++ m.name
  | .parameter => t.names.flatMap fun c =>
      (t.methods c).flatMap fun m => m.params.map fun p => c ++ "_" ++ m.name ++ "_" ++ p.name

/-- How a declared thing hangs on another. -/
inductive Link where
  | field
  | method
  | parameter

namespace Link

def word : Link → String
  | field => "hasField"
  | method => "hasMethod"
  | parameter => "hasParameter"

def whole : Link → Kind
  | field | method => .cls
  | parameter => .method

def part : Link → Kind
  | field => .field
  | method => .method
  | parameter => .parameter

end Link

/-- The words for the names of declared things and for the samples of simulation units. -/
def freeWords : List String :=
  ["hasName", "roleName", "hasSample", "ofPort", "withName", "withValue", "atTime"]

/-- What is lifted of a state and of a class table without annotations. -/
inductive Stated (t : ClassTable) (ns : Namespaces) (s : State) : Triple → Prop where
  | ofClass {o : Object} (ho : o ∈ s.heap.objects) :
    Stated t ns s ⟨ns.object o.ref, Lifter.rdfType, ns.classIri o.ref.className⟩
  | value {subject object : Term} {name : String} :
    Stated t ns s ⟨subject, ns.classIri name, object⟩
  | free {subject object : Term} {word : String} (hw : word ∈ freeWords) :
    Stated t ns s ⟨subject, ns.word word, object⟩
  | kind {k : Kind} {name : String} (hname : name ∈ namesOf t k) :
    Stated t ns s ⟨ns.classIri name, Lifter.rdfType, ns.word k.word⟩
  | super {a b : String} (h : t.superclass? a = some b) :
    Stated t ns s ⟨ns.classIri a, .iri Vocabulary.rdfsSubClassOf, ns.classIri b⟩
  | part (link : Link) {a b : String} (ha : a ∈ namesOf t link.whole)
      (hb : b ∈ namesOf t link.part) :
    Stated t ns s ⟨ns.classIri a, ns.word link.word, ns.classIri b⟩

lemma field_eq {name : String} : ns.field c name = ns.classIri (c ++ "_" ++ name) := by
  simp [Namespaces.field, Namespaces.classIri, String.append_assoc]

lemma method_eq {name : String} : ns.method c name = ns.classIri (c ++ "_" ++ name) := field_eq

lemma parameter_eq {m name : String} :
    ns.parameter c m name = ns.classIri (c ++ "_" ++ m ++ "_" ++ name) := by
  simp [Namespaces.parameter, Namespaces.classIri, String.append_assoc]

lemma stated_of_mem_objectTriples (ho : o ∈ s.heap.objects)
    (hx : x ∈ (Lifter.plain t ns).objectTriples o) : Stated t ns s x := by
  simp only [Lifter.objectTriples, Lifter.templateTriples_plain, List.append_nil, List.mem_cons,
    List.mem_flatMap] at hx
  rcases hx with rfl | ⟨f, -, hx⟩
  · exact .ofClass ho
  · rw [Lifter.fieldTriples_plain, field_eq] at hx
    obtain ⟨v, -, rfl⟩ := List.mem_map.1 hx
    exact .value

lemma stated_of_mem_unitTriples (hx : x ∈ (Lifter.plain t ns).unitTriples u) :
    Stated t ns s x := by
  cases Lifter.mem_unitTriples.1 hx <;> exact .free (by decide)

lemma stated_of_mem_partTriples (link : Link) {a b name : String}
    (ha : a ∈ namesOf t link.whole) (hb : b ∈ namesOf t link.part)
    (hx : x ∈ (Lifter.plain t ns).partTriples (ns.classIri a) link.word (ns.classIri b)
      link.part.word name) : Stated t ns s x := by
  simp only [Lifter.partTriples, List.mem_cons, List.not_mem_nil, or_false] at hx
  rcases hx with rfl | rfl | rfl
  · exact .part link ha hb
  · exact .kind hb
  · exact .free (by decide)

lemma stated_of_mem_methodTriples {m : MethodInfo} (hc : c ∈ t.names) (hm : m ∈ t.methods c)
    (hx : x ∈ (Lifter.plain t ns).methodTriples c m) : Stated t ns s x := by
  have hmethod : c ++ "_" ++ m.name ∈ namesOf t .method :=
    List.mem_flatMap.2 ⟨c, hc, List.mem_map.2 ⟨m, hm, rfl⟩⟩
  simp only [Lifter.methodTriples, List.mem_append, List.mem_flatMap] at hx
  rcases hx with hx | ⟨p, hp, hx⟩
  · rw [method_eq] at hx
    exact stated_of_mem_partTriples .method hc hmethod hx
  · have hparameter : c ++ "_" ++ m.name ++ "_" ++ p.name ∈ namesOf t .parameter :=
      List.mem_flatMap.2 ⟨c, hc, List.mem_flatMap.2 ⟨m, hm, List.mem_map.2 ⟨p, hp, rfl⟩⟩⟩
    rw [method_eq, parameter_eq] at hx
    exact stated_of_mem_partTriples .parameter hmethod hparameter hx

/-- **A class declares** nothing of another form. -/
lemma stated_of_mem_classTriples (hc : c ∈ t.names) (hx : x ∈ (Lifter.plain t ns).classTriples c) :
    Stated t ns s x := by
  simp only [Lifter.classTriples, List.mem_append, List.mem_cons, List.not_mem_nil, or_false,
    List.mem_map, Option.mem_toList, List.mem_flatMap, List.mem_filter] at hx
  rcases hx with (((rfl | rfl) | ⟨b, hb, rfl⟩) | ⟨f, ⟨hf, hown⟩, hx⟩) | ⟨m, hm, hx⟩
  · exact .kind (k := .cls) hc
  · exact .free (by decide)
  · exact .super hb
  · have hdeclaring : f.declaring = c := by simpa using hown
    have hfield : c ++ "_" ++ f.name ∈ namesOf t .field :=
      List.mem_flatMap.2 ⟨c, hc, List.mem_map.2 ⟨f, List.mem_filter.2 ⟨hf, hown⟩, rfl⟩⟩
    rw [Lifter.fieldIri, hdeclaring, field_eq] at hx
    exact stated_of_mem_partTriples .field hc hfield hx
  · exact stated_of_mem_methodTriples hc hm hx

lemma super_mem_classTriples {a b : String} (h : t.superclass? a = some b) :
    ⟨ns.classIri a, .iri Vocabulary.rdfsSubClassOf, ns.classIri b⟩ ∈
      (Lifter.plain t ns).classTriples a := by
  simp [Lifter.classTriples, Lifter.plain, h]

/-- Every declared thing is given its kind. -/
lemma exists_mem_classTriples (ns : Namespaces) {k : Kind} {name : String}
    (hname : name ∈ namesOf t k) :
    ∃ c ∈ t.names, ⟨ns.classIri name, Lifter.rdfType, ns.word k.word⟩ ∈
      (Lifter.plain t ns).classTriples c := by
  cases k with
  | cls => exact ⟨name, hname, by simp [Lifter.classTriples, Lifter.plain, Kind.word]⟩
  | field =>
    obtain ⟨c, hc, hmem⟩ := List.mem_flatMap.1 hname
    obtain ⟨f, hf, rfl⟩ := List.mem_map.1 hmem
    refine ⟨c, hc, List.mem_append_left _ (List.mem_append_right _ ?_)⟩
    have hdeclaring : f.declaring = c := by simpa using (List.mem_filter.1 hf).2
    refine List.mem_flatMap.2 ⟨f, hf, ?_⟩
    simp [Lifter.partTriples, Lifter.fieldIri, hdeclaring, field_eq, Lifter.plain, Kind.word]
  | method =>
    obtain ⟨c, hc, hmem⟩ := List.mem_flatMap.1 hname
    obtain ⟨m, hm, rfl⟩ := List.mem_map.1 hmem
    refine ⟨c, hc, List.mem_append_right _ (List.mem_flatMap.2 ⟨m, hm, ?_⟩)⟩
    simp [Lifter.methodTriples, Lifter.partTriples, method_eq, Lifter.plain, Kind.word]
  | parameter =>
    obtain ⟨c, hc, hmethods⟩ := List.mem_flatMap.1 hname
    obtain ⟨m, hm, hparams⟩ := List.mem_flatMap.1 hmethods
    obtain ⟨p, hp, rfl⟩ := List.mem_map.1 hparams
    refine ⟨c, hc, List.mem_append_right _ (List.mem_flatMap.2
      ⟨m, hm, List.mem_append_right _ (List.mem_flatMap.2 ⟨p, hp, ?_⟩)⟩)⟩
    simp [Lifter.partTriples, parameter_eq, Lifter.plain, Kind.word]

end Semlift.Lift
