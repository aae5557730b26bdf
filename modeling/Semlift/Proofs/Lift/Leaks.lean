import Semlift.Proofs.Lift.Reading

/-!
Placeholders that are left. When a template is filled in, the names that stand for the instance and
for fields are replaced where they are IRIs of their own. A placeholder that stands in a quoted
text, inside a reference or as the datatype of a literal is not replaced: its name goes into the
triples of the instances. All others are, however deep the brackets are in which they stand.
-/

namespace Semlift.Lift

open Semlift.Rdf Semlift.Rdf.Turtle Semlift.Rdf.Turtle.Step

variable {t : Term}

namespace Template

variable {T : Template} {prefixes : Prefixes} {text : String}

/-- All marks in the template are names that are filled in. -/
def Whole (T : Template) : Prop := ∀ x ∈ T.triples, WholeTriple x

/-- Every placeholder of the text stands where a term can, or in a comment. -/
def Standing (text : String) : Prop := Along Clear 0 (.term false) (filled text).toList

/-- The names in the text are written without escapes. -/
def PlainNames (text : String) : Prop := Along Unescaped 0 (.term false) (filled text).toList

instance : DecidablePred Standing := fun _ => inferInstanceAs (Decidable (Along _ _ _ _))

instance : DecidablePred PlainNames := fun _ => inferInstanceAs (Decidable (Along _ _ _ _))

lemma exists_of_read (h : read prefixes text = .ok T) :
    ∃ g, ((Reader.new prefixes "").readAbout (.iri selfIri) (filled text)).1 = .ok g ∧
      ⟨g.triples⟩ = T := by
  unfold read at h
  dsimp only at h
  rw [filled]
  exact map_eq_ok.1 h

lemma whole_iff_standing (h : read prefixes text = .ok T) (hps : Apart prefixes)
    (htext : ¬Spells text) (hnames : PlainNames text) : T.Whole ↔ Standing text := by
  obtain ⟨g, hg, rfl⟩ := exists_of_read h
  have hready : Ready false (filled text).toList := ⟨filledIn_filled htext, hnames⟩
  unfold Reader.readAbout Reader.run at hg
  dsimp only at hg
  split at hg
  · rename_i p hrun
    cases hg
    have hself : WholeTerm (.iri selfIri) := .inl rfl
    obtain ⟨-, hlead⟩ := carries_about (A := fun _ => True) hps hself _ p () hrun ⟨rfl, rfl⟩ trivial
    obtain ⟨-, hiff⟩ := hlead hready
    have hempty : WholeGraph Graph.empty := fun x hx => by cases hx
    rw [ends_about _ p () hrun] at hiff
    simp only [hempty, Along, and_true, true_and] at hiff
    exact hiff.symm
  · simp at hg

/-- The predicates of a template are names, and its subjects are no literals. -/
lemma made_of_read (h : read prefixes text = .ok T) :
    ∀ x ∈ T.triples, x.subject.isLiteral = false ∧ x.predicate.isIri := by
  obtain ⟨g, hg, rfl⟩ := exists_of_read h
  have hblank : ∀ t : Term, t.Under "" → t.isLiteral = false := by
    rintro t ⟨label, rfl⟩
    rfl
  have hkeeps : Keeps "" (Graph.Made (fun t => t.isLiteral = false) "") (about (.iri selfIri))
      fun _ => True := keeps_about hblank rfl
  intro x hx
  obtain ⟨hsubject, hpredicate, -⟩ := made_of_run hkeeps hg x hx
  exact ⟨hsubject, hpredicate⟩

end Template

/-! ### Instances -/

/-- The IRI, or the lexical text and the datatype. -/
def parts : Term → List String
  | .iri name => [name]
  | .blank _ => []
  | .literal lexical datatype _ => [lexical, datatype]

/-- A term without a name of the scheme in it. -/
def Foreign (t : Term) : Prop := ∀ s ∈ parts t, ¬Spells s

instance : DecidablePred Foreign := fun t => inferInstanceAs (Decidable (∀ s ∈ parts t, _))

/-- A term without a name in it that stands for the instance or for a field. -/
def Unmarked (t : Term) : Prop := ∀ s ∈ parts t, ¬Marked s

lemma Foreign.unmarked (h : Foreign t) : Unmarked t :=
  fun s hs hmarked => h s hs (spells_of_marked hmarked)

/-- No placeholder is left in any instance. -/
def Template.LeakFree (T : Template) : Prop :=
  ∀ self value blankPrefix, Foreign self → (∀ field t, value field = some t → Foreign t) →
    ∀ x ∈ T.instantiate self value blankPrefix,
      Unmarked x.subject ∧ Unmarked x.predicate ∧ Unmarked x.object

namespace Template

variable {T : Template} {prefixes : Prefixes} {text blankPrefix field : String} {self u : Term}
  {value : String → Option Term}

lemma prefix_of_fieldName? {name : String} (h : fieldName? name = some field) :
    fieldMark.toList <+: name.toList := by
  obtain ⟨more, hmore, -⟩ := Option.map_eq_some_iff.mp h
  exact ⟨more, (Text.afterPrefix?_eq_some_iff.mp hmore).symm⟩

lemma not_prefix_of_fieldName? {name : String} (h : fieldName? name = none) :
    ¬fieldMark.toList <+: name.toList := by
  rintro ⟨more, hmore⟩
  rw [fieldName?, Option.map_eq_none_iff, ← hmore] at h
  rw [Text.afterPrefix?_eq_some_iff.mpr rfl] at h
  cases h

lemma unmarked_of_fillTerm (ht : WholeTerm t) (hself : Foreign self)
    (hvalue : ∀ field t, value field = some t → Foreign t)
    (h : fillTerm self value blankPrefix t = some u) : Unmarked u := by
  cases t with
  | blank label =>
    cases h
    intro s hs
    cases hs
  | literal lexical datatype language =>
    cases h
    simpa [Unmarked, parts, WholeTerm] using ht
  | iri name =>
    rw [fillTerm] at h
    split at h
    · cases h
      exact hself.unmarked
    · rename_i hne
      split at h
      · exact (hvalue _ _ h).unmarked
      · rename_i hfield
        cases h
        rcases ht with hname | hname | hname
        · exact absurd hname hne
        · exact absurd hname (not_prefix_of_fieldName? hfield)
        · simpa [Unmarked, parts] using hname

/-- An instance in which every triple of the template is kept. -/
lemma exists_fillTerm (t : Term) :
    ∃ u, fillTerm (.iri "a") (fun _ => some (.iri "a")) "" t = some u ∧
      (Unmarked u → WholeTerm t) ∧ (t.isLiteral = false → u.isLiteral = false) ∧
      (t.isIri → u.isIri) := by
  cases t with
  | blank label => exact ⟨_, rfl, fun _ => trivial, fun _ => rfl, nofun⟩
  | literal lexical datatype language =>
    exact ⟨_, rfl, fun h => by simpa [Unmarked, parts, WholeTerm] using h, id, id⟩
  | iri name =>
    rw [fillTerm]
    split
    · rename_i hself
      exact ⟨_, rfl, fun _ => .inl hself, fun _ => rfl, fun _ => rfl⟩
    · split
      · rename_i hfield
        exact ⟨_, rfl, fun _ => .inr (.inl (prefix_of_fieldName? hfield)), fun _ => rfl,
          fun _ => rfl⟩
      · exact ⟨_, rfl, fun h => .inr (.inr (by simpa [Unmarked, parts] using h)), fun _ => rfl,
          fun _ => rfl⟩

lemma leakFree_iff_whole (h : read prefixes text = .ok T) : T.LeakFree ↔ T.Whole := by
  constructor
  · intro hfree x hx
    obtain ⟨hsubject, hpredicate⟩ := made_of_read h x hx
    obtain ⟨s, hs, hws, hls, -⟩ := exists_fillTerm x.subject
    obtain ⟨v, hv, hwv, -, hiv⟩ := exists_fillTerm x.predicate
    obtain ⟨o, ho, hwo, -⟩ := exists_fillTerm x.object
    have hmem : (⟨s, v, o⟩ : Triple) ∈ T.instantiate (.iri "a") (fun _ => some (.iri "a")) "" :=
      List.mem_filterMap.mpr
        ⟨x, hx, fillTriple_eq_some.mpr ⟨hs, hv, ho, hls hsubject, hiv hpredicate⟩⟩
    have ha : Foreign (.iri "a") := by decide +kernel
    obtain ⟨hus, huv, huo⟩ := hfree _ _ _ ha (fun _ _ ht => by cases ht; exact ha) _ hmem
    exact ⟨hws hus, hwv huv, hwo huo⟩
  · intro hwhole self value blankPrefix hself hvalue y hy
    obtain ⟨x, hx, hfill⟩ := List.mem_filterMap.mp hy
    obtain ⟨hs, hv, ho, -, -⟩ := fillTriple_eq_some.mp hfill
    obtain ⟨hws, hwv, hwo⟩ := hwhole x hx
    exact ⟨unmarked_of_fillTerm hws hself hvalue hs, unmarked_of_fillTerm hwv hself hvalue hv,
      unmarked_of_fillTerm hwo hself hvalue ho⟩

/-- **No placeholder is left** exactly if the marks of the template are whole names, and that is so
exactly if every placeholder of the text stands where a term can or in a comment. For the text it is
asked that only placeholders spell the scheme: not the text itself, no namespace with a local name,
and no name by its escapes. -/
theorem leakFree_iff (h : read prefixes text = .ok T) :
    (T.LeakFree ↔ T.Whole) ∧ (Apart prefixes → ¬Spells text → PlainNames text →
      (T.LeakFree ↔ Standing text)) := by
  have hwhole := leakFree_iff_whole h
  exact ⟨hwhole, fun hps htext hnames => hwhole.trans (whole_iff_standing h hps htext hnames)⟩

/-- A placeholder for an object in brackets, another one in a comment, and an escaped quote. -/
theorem leakFree_iff_nested :
    ∃ T, read .empty "<urn:p> [ <urn:q> %x, \"a\\\"b\" ] . # %x" = .ok T ∧ T.LeakFree := by
  have hread : ((read .empty "<urn:p> [ <urn:q> %x, \"a\\\"b\" ] . # %x").toOption.any
      fun _ => true) = true := by decide +kernel
  obtain ⟨T, hT, -⟩ := exists_ok_of_any hread
  have hapart : Apart .empty := fun _ _ h => by cases h
  exact ⟨T, hT, ((leakFree_iff hT).2 hapart (by decide +kernel) (by decide +kernel)).mpr
    (by decide +kernel)⟩

/-- The unit of a value as its datatype: the name that stands for the field is left. -/
theorem unit_as_datatype_left :
    let text := "<urn:p> \"5\"^^%unit ."
    ¬Spells text ∧ Foreign (.iri "urn:s") ∧ Foreign (.iri "urn:dt") ∧
      ∃ T, read .empty text = .ok T ∧ ¬T.LeakFree ∧
        T.instantiate (.iri "urn:s") (fun _ => some (.iri "urn:dt")) "" =
          [⟨.iri "urn:s", .iri "urn:p", .typed "5" "urn:smol:field:unit"⟩] := by
  intro text
  have hself : Foreign (.iri "urn:s") := by decide +kernel
  have hvalue : Foreign (.iri "urn:dt") := by decide +kernel
  have hread : ((read .empty text).toOption.any fun T => decide
      (T.instantiate (.iri "urn:s") (fun _ => some (.iri "urn:dt")) "" =
        [⟨.iri "urn:s", .iri "urn:p", .typed "5" "urn:smol:field:unit"⟩])) = true := by
    decide +kernel
  obtain ⟨T, hT, hinstance⟩ := exists_ok_of_any hread
  have hinstance := of_decide_eq_true hinstance
  refine ⟨by decide +kernel, hself, hvalue, T, hT, fun hfree => ?_, hinstance⟩
  have hunmarked := hfree (.iri "urn:s") (fun _ => some (.iri "urn:dt")) "" hself
    (fun _ _ ht => by cases ht; exact hvalue) _ (hinstance ▸ List.mem_singleton_self _)
  have hmarked : Marked "urn:smol:field:unit" := by decide +kernel
  exact hunmarked.2.2 _ (by simp [Term.typed, parts]) hmarked

end Template

end Semlift.Lift
