import Semlift.Lift.Lifter
import Semlift.Proofs.Except
import Semlift.Proofs.Rdf.Turtle.Keeps

/-!
Templates that are read. All that a template says is about the instance or about a blank node of the
template, and so is what it gives when it is filled in.
-/

namespace Semlift.Lift

open Semlift.Program Semlift.Rdf

/-- Every triple is about the instance or about a blank node of the template. -/
def Template.AboutSelf (T : Template) : Prop :=
  ∀ x ∈ T.triples, x.subject = .iri selfIri ∨ x.subject.isBlank

namespace Template

variable {T : Template} {self : Term} {value : String → Option Term} {blankPrefix : String}
  {prefixes : Prefixes} {text : String} {x y : Triple}

lemma aboutSelf_of_read (h : Template.read prefixes text = .ok T) : T.AboutSelf := by
  unfold Template.read at h
  dsimp only at h
  obtain ⟨g, hg, rfl⟩ := map_eq_ok.1 h
  exact Turtle.about_of_readAbout hg

lemma fillTriple_eq_some :
    fillTriple self value blankPrefix x = some y ↔
      fillTerm self value blankPrefix x.subject = some y.subject ∧
        fillTerm self value blankPrefix x.predicate = some y.predicate ∧
        fillTerm self value blankPrefix x.object = some y.object ∧
        y.subject.isLiteral = false ∧ y.predicate.isIri := by
  obtain ⟨s, p, o⟩ := y
  simp only [fillTriple, Option.bind_eq_bind, Option.bind_eq_some_iff, Option.ite_none_left_eq_some,
    Option.some.injEq, Triple.mk.injEq, Bool.or_eq_true, not_or, Bool.not_eq_true,
    Bool.not_eq_false']
  constructor
  · rintro ⟨s', hs, p', hp, o', ho, ⟨hl, hi⟩, rfl, rfl, rfl⟩
    exact ⟨hs, hp, ho, hl, hi⟩
  · rintro ⟨hs, hp, ho, hl, hi⟩
    exact ⟨s, hs, p, hp, o, ho, ⟨hl, hi⟩, rfl, rfl, rfl⟩

lemma subject_of_mem_instantiate (hT : T.AboutSelf)
    (h : y ∈ T.instantiate self value blankPrefix) :
    y.subject = self ∨ ∃ label, y.subject = .blank (blankPrefix ++ label) := by
  obtain ⟨x, hx, hy⟩ := List.mem_filterMap.1 h
  have hs := (fillTriple_eq_some.1 hy).1
  rcases hT x hx with hself | hblank
  · rw [hself, fillTerm, if_pos rfl, Option.some.injEq] at hs
    exact .inl hs.symm
  · cases hb : x.subject with
    | blank label =>
      rw [hb, fillTerm, Option.some.injEq] at hs
      exact .inr ⟨label, hs.symm⟩
    | _ => simp [hb, Term.isBlank] at hblank

end Template

namespace Lifter

variable {l : Lifter} {t : ClassTable} {names : Namespaces} {prefixes : Prefixes} {T : Template}
  {c : String}

structure Proper (t : ClassTable) (l : Lifter) : Prop where
  table : l.table = t
  templates : ∀ e ∈ l.templates, e.2.AboutSelf

/-- **A lifter is made of templates about the instance.** -/
theorem proper_of_new (h : new t names prefixes = .ok l) : l.Proper t := by
  refine foldlM_keeps (P := Proper t) (fun c _ k k' hk hp => ?_) h ⟨rfl, by simp⟩
  simp only [addClass, bind_eq_ok, pure_eq_ok] at hk
  obtain ⟨templates, ht, predicates, -, rfl⟩ := hk
  refine ⟨hp.table, fun e he => ?_⟩
  rcases List.mem_append.1 he with he | he
  · exact hp.templates e he
  · unfold readTemplate at ht
    dsimp only at ht
    split at ht
    · cases ht
      simp at he
    · split at ht
      · rename_i T hT
        cases ht
        rw [List.mem_singleton.1 he]
        exact Template.aboutSelf_of_read hT
      · simp at ht

lemma mem_templates_of_template? (h : l.template? c = some T) : ∃ e ∈ l.templates, e.2 = T := by
  obtain ⟨d, -, hd⟩ := List.exists_of_findSome?_eq_some h
  obtain ⟨e, he, hT⟩ := Option.map_eq_some_iff.1 hd
  exact ⟨e, List.mem_of_find?_eq_some he, hT⟩

lemma Proper.template? (hl : l.Proper t) (h : l.template? c = some T) : T.AboutSelf := by
  obtain ⟨e, he, rfl⟩ := mem_templates_of_template? h
  exact hl.templates e he

end Lifter

end Semlift.Lift
