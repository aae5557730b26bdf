import Semlift.Proofs.Knowledge.Graph
import Semlift.Proofs.Knowledge.Load
import Semlift.Proofs.Lift.Plain

/-!
Knowledge under the usual names: a program and the language are named as by default, and the
prefixes that the core vocabulary is written with have their usual meaning. No name of a program is
then one of the language or of a standard vocabulary.
-/

namespace Semlift.Config.Settings

/-- What prefixes stand for by default. -/
def usualMeaning : Knowledge.Meanings := fun n => ((default "").prefixes.find? n).getD ""

/-- Default names for programs and for the language, and the usual meaning of the prefixes of the
core vocabulary. -/
structure Conventional (s : Settings) : Prop where
  program : s.program = (default "").program
  language : s.language = (default "").language
  prefixes : ∀ n ∈ ["smol", "owl", "rdfs", "xsd"], s.prefixes.find? n = some (usualMeaning n)

/-- Without extra prefixes the standard ones have their usual meaning. -/
lemma conventional_of_extra_eq_nil {s : Settings} (hp : s.program = (default "").program)
    (hl : s.language = (default "").language) (he : s.extra = []) : s.Conventional := by
  refine ⟨hp, hl, fun n hn => ?_⟩
  unfold prefixes
  rw [he, hl]
  simp only [List.mem_cons, List.not_mem_nil, or_false] at hn
  rcases hn with rfl | rfl | rfl | rfl <;> rfl

end Semlift.Config.Settings

namespace Semlift.Knowledge

open Semlift.Rdf Semlift.Files Semlift.Program Semlift.Lift
open Semlift.Config.Settings (default usualMeaning namespaces)
open Semlift.Ontology (rdfType subClassOf subPropertyOf domain range disjointWith nothing)

variable {t : ClassTable} {settings : Config.Settings} {tree : Tree} {b : Base} {x : Triple}
  {c d : Term} {n w : String}

/-- The core vocabulary under the usual names. -/
@[irreducible] def usualCore : Graph := .ofList (coreTriples usualMeaning)

lemma usualCore_eq : usualCore = .ofList (coreTriples usualMeaning) := by
  delta usualCore
  with_reducible rfl

/-- A word of the language under its usual name. -/
def usualWord (w : String) : Term := .iri ((default "").language ++ w)

/-- **What is known without annotations** under the usual names; only the background is read from
a file. -/
lemma load_iff (hs : settings.Conventional) (ht : t.models = []) :
    Base.load t settings tree = .ok b ↔ ∃ background,
      readBackground settings.prefixes tree settings.background = .ok background ∧
        b = ⟨settings.prefixes, settings.domain, .plain t settings.namespaces, usualCore, background,
          some .schema, externalReasoner settings, tree⟩ := by
  have hcore : coreGraph settings.prefixes = .ok usualCore :=
    (coreGraph_eq (core_eq hs.prefixes)).trans (congrArg Except.ok usualCore_eq.symm)
  rw [Base.load_eq_ok]
  constructor
  · rintro ⟨lifter, core, background, hlifter, hread, hbackground, rfl⟩
    rw [Lifter.new_eq_plain ht] at hlifter
    rw [hcore] at hread
    obtain rfl := Except.ok.inj hlifter
    obtain rfl := Except.ok.inj hread
    exact ⟨background, hbackground, rfl⟩
  · rintro ⟨background, hbackground, rfl⟩
    exact ⟨_, _, background, Lifter.new_eq_plain ht, hcore, hbackground, rfl⟩

lemma exists_load (hs : settings.Conventional) (ht : t.models = [])
    (hbackground : settings.background = "") : ∃ b, Base.load t settings tree = .ok b :=
  ⟨_, (load_iff hs ht).2 ⟨.empty, by simp [readBackground, hbackground], rfl⟩⟩

/-! ### Names -/

/-- No name of a program. -/
def Outside : Term → Bool
  | .iri n => !(default "").program.toList.isPrefixOf n.toList
  | _ => true

lemma classIri_ne (hs : settings.Conventional) (hc : Outside c) :
    settings.namespaces.classIri n ≠ c := by
  rintro rfl
  have hprefix : (default "").program.toList.isPrefixOf
      ((default "").program.toList ++ n.toList) := List.isPrefixOf_iff_prefix.2 ⟨_, rfl⟩
  simp [Outside, Namespaces.classIri, namespaces, hs.program, hprefix] at hc

/-- The namespaces of programs and of the language part after what they begin with. -/
lemma outside_word : Outside (usualWord w) := by
  have hprogram : (default "").program.toList =
      "https://github.com/Edkamb/SemanticObjects".toList ++ '/' :: "Program#".toList := by
    decide +kernel
  have hlanguage : (default "").language.toList =
      "https://github.com/Edkamb/SemanticObjects".toList ++ ['#'] := by
    decide +kernel
  have hprefix : (default "").program.toList.isPrefixOf
      ((default "").language.toList ++ w.toList) = false := by
    rw [← Bool.not_eq_true, List.isPrefixOf_iff_prefix, hprogram, hlanguage, List.append_assoc,
      List.prefix_append_right_inj]
    simp
  simp [Outside, usualWord, hprefix]

lemma classIri_inj {m : String} (h : settings.namespaces.classIri n = settings.namespaces.classIri m) :
    n = m := by
  simpa [Namespaces.classIri] using h

lemma word_eq (hs : settings.Conventional) : settings.namespaces.word w = usualWord w := by
  rw [Namespaces.word, namespaces, hs.language, usualWord]

/-! ### The core vocabulary -/

/-- The predicates that the rules of a schema are about. -/
def schemaPredicates : List Term :=
  [rdfType, subClassOf, subPropertyOf, domain, range, disjointWith]

/-- The words that the core vocabulary gives a domain or a range. -/
def typedWords : List String := ["hasField", "hasMethod", "hasParameter"] ++ freeWords

/-- The words for the kinds of declared things. -/
def kindTerms : List Term := Kind.all.map fun k => usualWord k.word

/-- A class that has no names of a program as its members. -/
def Foreign (c : Term) : Prop := Outside c ∧ c ∉ kindTerms ∧ c ≠ nothing

instance : DecidablePred Foreign := fun c =>
  inferInstanceAs (Decidable (Outside c ∧ c ∉ kindTerms ∧ c ≠ nothing))

lemma mem_usualCore : x ∈ usualCore.triples ↔ x ∈ coreTriples usualMeaning := by
  rw [usualCore_eq, Graph.triples_ofList, List.mem_eraseDups]

/-- What the core vocabulary says of predicates, it says of its typed words. -/
lemma exists_typedWord (hx : x ∈ usualCore.triples)
    (hp : x.predicate = domain ∨ x.predicate = range) :
    ∃ w ∈ typedWords, x.subject = usualWord w := by
  have hall : ∀ x ∈ coreTriples usualMeaning, (x.predicate = domain ∨ x.predicate = range) →
      ∃ w ∈ typedWords, x.subject = usualWord w := by
    decide +kernel
  exact hall x (mem_usualCore.1 hx) hp

/-- The core vocabulary is about the schema, and gives no types but its own. -/
lemma core_predicate (hx : x ∈ usualCore.triples) :
    x.predicate ≠ subClassOf ∧ x.predicate ≠ subPropertyOf ∧
      (∀ w ∈ typedWords, x.predicate ≠ usualWord w) ∧ (x.predicate = rdfType → Foreign x.object) := by
  have hall : ∀ x ∈ coreTriples usualMeaning, x.predicate ≠ subClassOf ∧
      x.predicate ≠ subPropertyOf ∧ (∀ w ∈ typedWords, x.predicate ≠ usualWord w) ∧
        (x.predicate = rdfType → Foreign x.object) := by
    decide +kernel
  exact hall x (mem_usualCore.1 hx)

/-- The free words are given foreign domains and ranges. -/
lemma foreign_of_free (hw : w ∈ freeWords) (hx : x ∈ usualCore.triples)
    (hp : x.predicate = domain ∨ x.predicate = range) (hs : x.subject = usualWord w) :
    Foreign x.object := by
  have hall : ∀ x ∈ coreTriples usualMeaning, (x.predicate = domain ∨ x.predicate = range) →
      ∀ w ∈ freeWords, x.subject = usualWord w → Foreign x.object := by
    decide +kernel
  exact hall x (mem_usualCore.1 hx) hp w hw hs

/-- A link leads from a thing of one kind to a thing of another. -/
lemma core_link (link : Link) (hx : x ∈ usualCore.triples) (hs : x.subject = usualWord link.word) :
    (x.predicate = domain → x.object = usualWord link.whole.word) ∧
      (x.predicate = range → x.object = usualWord link.part.word) := by
  have hall : ∀ x ∈ coreTriples usualMeaning, x.subject = usualWord link.word →
      (x.predicate = domain → x.object = usualWord link.whole.word) ∧
        (x.predicate = range → x.object = usualWord link.part.word) := by
    cases link <;> decide +kernel
  exact hall x (mem_usualCore.1 hx) hs

/-- Only kinds are declared disjoint. -/
lemma exists_kinds_of_disjoint (hx : x ∈ usualCore.triples) (hp : x.predicate = disjointWith) :
    ∃ k k' : Kind, k ≠ k' ∧ x.subject = usualWord k.word ∧ x.object = usualWord k'.word := by
  have hall : ∀ x ∈ coreTriples usualMeaning, x.predicate = disjointWith →
      ∃ k ∈ Kind.all, ∃ k' ∈ Kind.all, k ≠ k' ∧ x.subject = usualWord k.word ∧
        x.object = usualWord k'.word := by
    decide +kernel
  obtain ⟨k, -, k', -, h⟩ := hall x (mem_usualCore.1 hx) hp
  exact ⟨k, k', h⟩

/-- Any two kinds are declared disjoint, in one order. -/
lemma core_disjoint (k k' : Kind) (h : k ≠ k') :
    ⟨usualWord k.word, disjointWith, usualWord k'.word⟩ ∈ usualCore.triples ∨
      ⟨usualWord k'.word, disjointWith, usualWord k.word⟩ ∈ usualCore.triples := by
  have hall : ∀ k ∈ Kind.all, ∀ k' ∈ Kind.all, k ≠ k' →
      ⟨usualWord k.word, disjointWith, usualWord k'.word⟩ ∈ coreTriples usualMeaning ∨
        ⟨usualWord k'.word, disjointWith, usualWord k.word⟩ ∈ coreTriples usualMeaning := by
    decide +kernel
  rw [mem_usualCore, mem_usualCore]
  exact hall k k.mem_all k' k'.mem_all h

end Semlift.Knowledge
