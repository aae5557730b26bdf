import Semlift.Proofs.Knowledge.Graph
import Semlift.Proofs.Lift.Subject
import Semlift.Proofs.Store.Survivors

/-!
Objects that lifted triples name. The triples of an object name the object itself, the objects in
its fields and what its class spells out; those of a simulation unit name its object and the objects
in its samples. A collection does not look into samples. So after it the triples name live objects
only, exactly if the samples of the units that stay hold nothing but objects that stay, and no class
that is still in use spells out the name of an erased object.
-/

namespace Semlift.Lift

open Semlift.Program Semlift.Rdf Semlift.Store

namespace Namespaces

variable {ns : Namespaces} {r d : ObjectRef} {v : Value}

/-- Only objects are lifted to the names of objects. -/
lemma lift?_eq_object (h : ns.lift? v = some (ns.object r)) :
    ∃ d, v = .object d ∧ d.serial = r.serial := by
  cases v with
  | object d => exact ⟨d, rfl, object_eq_object_iff.1 (Option.some.inj h)⟩
  | _ => simp [lift?, object, Term.boolean, Term.integer, Term.double, Term.string, Term.typed] at h

end Namespaces

/-- The triple has the name of an object as its subject or its object. -/
def Namespaces.Names (ns : Namespaces) (x : Triple) (r : ObjectRef) : Prop :=
  x.subject = ns.object r ∨ x.object = ns.object r

/-- What can stand in a filled template where it has a term. -/
lemma Template.fillTerm_eq_some {self a b : Term} {value : String → Option Term}
    {blankPrefix : String} (h : fillTerm self value blankPrefix a = some b) :
    b = self ∨ (∃ field, value field = some b) ∨ b.isBlank ∨ a = b := by
  cases a with
  | blank label =>
    rw [fillTerm, Option.some.injEq] at h
    exact .inr (.inr (.inl (h ▸ rfl)))
  | literal lexical datatype language => exact .inr (.inr (.inr (Option.some.inj h)))
  | iri name =>
    rw [fillTerm] at h
    split at h
    · exact .inl (Option.some.inj h).symm
    · split at h
      · exact .inr (.inl ⟨_, h⟩)
      · exact .inr (.inr (.inr (Option.some.inj h)))

namespace Lifter

variable {l : Lifter} {t : ClassTable} {s : State} {o : Object} {u : SimUnit} {x : Triple}
  {r : ObjectRef} {T : Template}

/-- What the class of an object says of it names another object, without a field for it: the name of
the class does, or an object of the template that is as the template has it. -/
inductive Spells (l : Lifter) (o : Object) (r : ObjectRef) : Prop where
  | className : l.names.classIri o.ref.className = l.names.object r → Spells l o r
  | template {T : Template} {x y : Triple} : l.template? o.ref.className = some T → x ∈ T.triples →
      Template.fillTriple (l.names.object o.ref) (l.fieldTerm? o) (o.ref.name ++ "_t_") x = some y →
      x.object = y.object → y.object = l.names.object r → Spells l o r

lemma exists_of_fieldTerm? {field : String} (h : l.fieldTerm? o field = some (l.names.object r)) :
    ∃ name d, (name, .object d) ∈ o.fields ∧ d.serial = r.serial := by
  obtain ⟨v, hv, hlift⟩ := Option.bind_eq_some_iff.1 h
  obtain ⟨d, rfl, hd⟩ := Namespaces.lift?_eq_object hlift
  exact ⟨field, d, Fields.mem_of_get? hv, hd⟩

/-! ### What the triples of an object name -/

lemma names_of_mem_fieldTriples {f : FieldInfo} (hx : x ∈ l.fieldTriples o f)
    (hn : l.names.Names x r) : r.serial = o.ref.serial ∨
      ∃ name d, (name, .object d) ∈ o.fields ∧ d.serial = r.serial := by
  rcases hn with hn | hn
  · rw [subject_of_mem_fieldTriples hx, Namespaces.object_eq_object_iff] at hn
    exact .inl hn.symm
  · unfold fieldTriples at hx
    split at hx
    · simp at hx
    · rename_i value hvalue
      have hobject : x.object = value := by
        simp only [List.mem_cons, List.mem_map, Option.mem_toList] at hx
        rcases hx with rfl | ⟨q, -, rfl⟩ <;> rfl
      exact .inr (exists_of_fieldTerm? (hvalue.trans (congrArg some (hobject ▸ hn))))

lemma names_of_mem_templateTriples (hl : l.Proper t) (hx : x ∈ l.templateTriples o)
    (hn : l.names.Names x r) : r.serial = o.ref.serial ∨
      (∃ name d, (name, .object d) ∈ o.fields ∧ d.serial = r.serial) ∨ l.Spells o r := by
  unfold templateTriples at hx
  split at hx
  · simp at hx
  rename_i T hT
  rcases hn with hn | hn
  · rcases Template.subject_of_mem_instantiate (hl.template? hT) hx with hs | ⟨label, hs⟩
    · rw [hs, Namespaces.object_eq_object_iff] at hn
      exact .inl hn.symm
    · simp [hs, Namespaces.object] at hn
  · obtain ⟨y, hy, hfill⟩ := List.mem_filterMap.1 hx
    have hterm := (Template.fillTriple_eq_some.1 hfill).2.2.1
    rcases Template.fillTerm_eq_some hterm with hself | ⟨field, hfield⟩ | hblank | hsame
    · rw [hself, Namespaces.object_eq_object_iff] at hn
      exact .inl hn.symm
    · exact .inr (.inl (exists_of_fieldTerm? (hfield.trans (congrArg some hn))))
    · simp [hn, Namespaces.object, Term.isBlank] at hblank
    · exact .inr (.inr (.template hT hy hfill hsame hn))

/-- **An object names** itself, what its fields hold and what its class spells out. -/
lemma names_of_mem_objectTriples (hl : l.Proper t) (hx : x ∈ l.objectTriples o)
    (hn : l.names.Names x r) : r.serial = o.ref.serial ∨
      (∃ name d, (name, .object d) ∈ o.fields ∧ d.serial = r.serial) ∨ l.Spells o r := by
  simp only [objectTriples, List.cons_append, List.mem_cons, List.mem_append,
    List.mem_flatMap] at hx
  rcases hx with rfl | ⟨f, -, hx⟩ | hx
  · rcases hn with hn | hn
    · exact .inl (Namespaces.object_eq_object_iff.1 hn).symm
    · exact .inr (.inr (.className hn))
  · exact (names_of_mem_fieldTriples hx hn).imp_right .inl
  · exact names_of_mem_templateTriples hl hx hn

lemma exists_names_of_spells (h : l.Spells o r) : ∃ x ∈ l.objectTriples o, l.names.Names x r := by
  cases h with
  | className h => exact ⟨_, List.mem_append_left _ List.mem_cons_self, .inr h⟩
  | template hT hx hfill _ hn =>
    refine ⟨_, List.mem_append_right _ ?_, .inr hn⟩
    rw [templateTriples, hT]
    exact List.mem_filterMap.2 ⟨_, hx, hfill⟩

/-! ### What the triples of a simulation unit name -/

/-- **A unit names** its object and what its samples hold. -/
lemma names_of_mem_unitTriples (hx : x ∈ l.unitTriples u) (hn : l.names.Names x r) :
    r.serial = u.ref.serial ∨ ∃ a ∈ u.samples, ∃ d, a.value = .object d ∧ d.serial = r.serial := by
  cases mem_unitTriples.1 hx with
  | role | sample =>
    rcases hn with hn | hn
    · exact .inl (Namespaces.object_eq_object_iff.1 hn).symm
    · simp [Namespaces.object, Term.string, Term.typed] at hn
  | value h hv =>
    rcases hn with hn | hn
    · simp [Namespaces.object] at hn
    · exact .inr ⟨_, List.fst_mem_of_mem_zipIdx h,
        Namespaces.lift?_eq_object (hv.trans (congrArg some hn))⟩
  | sampleRole | port | portName | time =>
    simp [Namespaces.Names, Namespaces.object, Term.string, Term.double, Term.typed] at hn

lemma exists_names_of_sample {a : Sample} (ha : a ∈ u.samples) (hv : a.value = .object r) :
    ∃ x ∈ l.unitTriples u, l.names.Names x r := by
  obtain ⟨i, hi⟩ := List.getElem?_of_mem ha
  have hlift : l.names.lift? a.value = some (l.names.object r) := by rw [hv, Namespaces.lift?]
  exact ⟨_, mem_unitTriples.2 (.value (List.mem_zipIdx_iff_getElem?.2 hi) hlift), .inr rfl⟩

/-! ### After a collection -/

/-- **When no lifted triple names an erased object.** After a collection in a state of live
references, the sources of the state name live objects only, exactly if the samples of the units
that stay hold objects that stay, and what the classes of the objects that stay spell out stays. -/
theorem names_live_iff {names : Namespaces} {prefixes : Prefixes} (h : new t names prefixes = .ok l)
    (hs : s.heap.serials.Nodup) (hlive : s.Live) :
    (∀ guarded p, ∀ x ∈ l.stateSource s.collect.2 guarded p, ∀ r, l.names.Names x r →
        r.serial ∈ s.collect.2.heap.serials) ↔
      s.SamplesLed ∧ ∀ o ∈ s.heap.objects, s.Leads o.ref.serial → ∀ r, l.Spells o r →
        r.serial ∈ s.heap.serials ∧ s.Leads r.serial := by
  constructor
  · intro hall
    refine ⟨fun u hu hled a ha r hv => ?_, fun o ho hled r hr => ?_⟩
    · obtain ⟨x, hx, hn⟩ := exists_names_of_sample (l := l) ha hv
      have hstays : u ∈ s.collect.2.simulation :=
        (State.mem_simulation_collect hs).2 ⟨hu, fun _ => hled⟩
      have hlive := hall false .any x (mem_stateSource_any.2 (.inr ⟨u, hstays, hx⟩)) r hn
      exact ((State.mem_serials_collect hs).1 hlive).2
    · obtain ⟨x, hx, hn⟩ := exists_names_of_spells hr
      have hstays : o ∈ s.collect.2.heap.objects := (State.mem_objects_collect hs).2 ⟨ho, hled⟩
      have hlive := hall false .any x (mem_stateSource_any.2 (.inl ⟨o, hstays, hx⟩)) r hn
      exact (State.mem_serials_collect hs).1 hlive
  · rintro ⟨hsamples, hspells⟩ guarded p x hx r hn
    rw [State.mem_serials_collect hs]
    rcases mem_stateSource_any.1 (contained_stateSource p x hx).1 with ⟨o, ho, hx⟩ | ⟨u, hu, hx⟩
    · obtain ⟨ho, hled⟩ := (State.mem_objects_collect hs).1 ho
      rcases names_of_mem_objectTriples (proper_of_new h) hx hn with
        hself | ⟨name, d, he, hd⟩ | hspell
      · exact hself ▸ ⟨List.mem_map_of_mem ho, hled⟩
      · exact hd ▸ ⟨hlive.held d (.field ho he), hled.field hs ho he⟩
      · exact hspells o ho hled r hspell
    · obtain ⟨hu, hled⟩ := (State.mem_simulation_collect hs).1 hu
      have hserial := hlive.units u hu
      rcases names_of_mem_unitTriples hx hn with hself | ⟨a, ha, d, hv, hd⟩
      · exact hself ▸ ⟨hserial, hled hserial⟩
      · exact hd ▸ ⟨hlive.samples u hu a ha d hv, hsamples u hu (hled hserial) a ha d hv⟩

/-- Tanks are part of what the main block runs on, by its name. -/
def tankProgram : Program.Source :=
  ⟨[⟨"Tank", none, [⟨"valve", "Valve", ""⟩], [], "<urn:part> <urn:run#obj0>", false⟩,
    ⟨"Valve", none, [], [], "", false⟩], some (.skip 1)⟩

/-- A tank as a simulation unit, with a sample that holds a valve. -/
def tankState (valve : Value) : State where
  stack := [⟨some (.skip 1), [("t", .object ⟨1, "Tank"⟩)], ⟨0, entryClass⟩, 0, true⟩]
  heap := ⟨[⟨⟨0, entryClass⟩, []⟩, ⟨⟨1, "Tank"⟩, [("valve", valve)]⟩, ⟨⟨2, "Valve"⟩, []⟩], 3⟩
  simulation := [⟨⟨1, "Tank"⟩, "tank", [⟨"inlet", .object ⟨2, "Valve"⟩, ⟨0⟩⟩]⟩]
  root := some ⟨0, entryClass⟩
  nextFrame := 1

/-- The tank holds the valve as well. -/
def fittedState : State := tankState (.object ⟨2, "Valve"⟩)

/-- Nothing but the sample holds the valve. -/
def looseState : State := tankState .null

def tankNames : Namespaces := ⟨"urn:prog#", "urn:run#", "urn:smol#", "urn:dom#"⟩

/-- While its tank holds the valve, all that the triples name after a collection is live. -/
theorem names_live_iff_tank : ∃ t l, tankProgram.build = .ok t ∧
    new t tankNames .empty = .ok l ∧ fittedState.heap.serials.Nodup ∧
      fittedState.Live ∧
      ∀ guarded p, ∀ x ∈ l.stateSource fittedState.collect.2 guarded p,
        ∀ r, l.names.Names x r →
          r.serial ∈ fittedState.collect.2.heap.serials := by
  obtain ⟨t, l, hb, hl, hrun⟩ := exists_new_of_build tankProgram tankNames .empty
    (fun l => (l.names, l.templates))
    (tankNames, [("Tank", ⟨[⟨.iri selfIri, .iri "urn:part", tankNames.object ⟨0, entryClass⟩⟩]⟩)])
    (by decide +kernel)
  obtain ⟨hnames, htemplates⟩ := Prod.mk.inj hrun
  have hs : fittedState.heap.serials.Nodup := by decide
  have hlive : fittedState.Live := by decide
  have hled : ∀ n ∈ [0, 1, 2], fittedState.Leads n := fun n hn =>
    (State.mem_marked_iff hs).1 ((by decide +kernel : ∀ n ∈ [0, 1, 2], n ∈ State.marked _) n hn)
  refine ⟨t, l, hb, hl, hs, hlive, (names_live_iff hl hs hlive).2 ⟨?_, fun o _ _ r hr => ?_⟩⟩
  · intro u hu _ a ha r hv
    rw [List.mem_singleton.1 hu] at ha
    rw [List.mem_singleton.1 ha] at hv
    exact Value.object.inj hv ▸ hled 2 (by decide)
  · have hentry : r.serial = 0 := by
      cases hr with
      | className h =>
        rw [hnames, tankNames, Namespaces.classIri, Namespaces.object, Term.iri.injEq] at h
        have hfifth := congrArg (·.toList[4]?) h
        simp at hfifth
      | template hT hx hfill hsame hn =>
        obtain ⟨e, he, rfl⟩ := mem_templates_of_template? hT
        rw [htemplates, List.mem_singleton] at he
        subst he
        rw [List.mem_singleton.1 hx] at hsame
        rw [← hsame, hnames, Namespaces.object_eq_object_iff] at hn
        exact hn.symm
    exact hentry ▸ ⟨by decide, hled 0 (by decide)⟩

/-- A valve that nothing but a sample holds is erased, and lifted all the same. -/
theorem sample_names_erased : ∃ t l, tankProgram.build = .ok t ∧
    new t tankNames .empty = .ok l ∧ looseState.heap.serials.Nodup ∧
      looseState.Live ∧ 2 ∉ looseState.collect.2.heap.serials ∧
      ⟨.blank "obj1_s0", .iri "urn:smol#withValue", tankNames.object ⟨2, "Valve"⟩⟩ ∈
        l.stateSource looseState.collect.2 false .any := by
  obtain ⟨t, l, hb, hl, hrun⟩ := exists_new_of_build tankProgram tankNames .empty
    (fun l => l.stateSource looseState.collect.2 false
      ⟨none, some (.iri "urn:smol#withValue"), none⟩)
    [⟨.blank "obj1_s0", .iri "urn:smol#withValue", tankNames.object ⟨2, "Valve"⟩⟩]
    (by decide +kernel)
  refine ⟨t, l, hb, hl, by decide, by decide, by decide +kernel, ?_⟩
  exact (contained_stateSource _ _ (hrun ▸ List.mem_singleton_self _)).1

end Lifter

end Semlift.Lift
