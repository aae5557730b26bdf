import Mathlib.Data.List.Nodup
import Semlift.Proofs.Lift.Plain
import Semlift.Proofs.Lift.Subject
import Semlift.Proofs.Program.Forest

/-!
Fields told apart. The predicate of a field is made of the name of the class that declares it, an
underscore and its own name. Names may hold underscores themselves, so two fields of an object can
have one predicate, and the value of one is then taken for a value of the other. Where no two fields
of a class have one predicate, and no field has one that is said of simulation units, all that is
said of an object under the predicate of a field is the value of the field.
-/

namespace Semlift.Lift

open Semlift.Program Semlift.Rdf Semlift.Store

/-- The words for what is said of a simulation unit itself. -/
def unitWords : List String := ["roleName", "hasSample"]

/-- No two fields of a class, inherited or its own, have one predicate, and no field has one that is
said of simulation units. -/
structure FieldsApart (t : ClassTable) (ns : Namespaces) : Prop where
  fields : ∀ c ∈ t.names, ∀ f ∈ t.fields c, ∀ g ∈ t.fields c,
    f.declaring ++ "_" ++ f.name = g.declaring ++ "_" ++ g.name → f = g
  words : ∀ c ∈ t.names, ∀ f ∈ t.fields c, ∀ w ∈ unitWords, ns.field f.declaring f.name ≠ ns.word w

variable {t : ClassTable} {ns : Namespaces} {l : Lifter} {s : State} {o : Object} {u : SimUnit}
  {f g : FieldInfo} {r : ObjectRef} {x : Triple} {p : TriplePattern} {guarded : Bool}

lemma fieldsApart_iff : FieldsApart t ns ↔
    (∀ c ∈ t.names, ∀ f ∈ t.fields c, ∀ g ∈ t.fields c,
      f.declaring ++ "_" ++ f.name = g.declaring ++ "_" ++ g.name → f = g) ∧
    ∀ c ∈ t.names, ∀ f ∈ t.fields c, ∀ w ∈ unitWords, ns.field f.declaring f.name ≠ ns.word w :=
  ⟨fun h => ⟨h.fields, h.words⟩, fun h => ⟨h.1, h.2⟩⟩

instance : Decidable (FieldsApart t ns) := decidable_of_iff' _ fieldsApart_iff

/-- Every object has the fields of its class. -/
def Furnished (t : ClassTable) (s : State) : Prop :=
  ∀ o ∈ s.heap.objects, ∀ f ∈ t.fields o.ref.className, (o.fields.get? f.name).isSome

lemma field_eq_field_iff {a b m n : String} :
    ns.field a m = ns.field b n ↔ a ++ "_" ++ m = b ++ "_" ++ n := by
  simp [Namespaces.field, String.append_assoc]

/-- There is no underscore in the name of the predicate for classes. -/
lemma rdfType_ne_field {c name : String} : Lifter.rdfType ≠ ns.field c name := by
  intro h
  have hmem : '_' ∈ (ns.program ++ c ++ "_" ++ name).toList := by simp
  rw [← Term.iri.inj h] at hmem
  exact absurd hmem (by decide)

lemma mem_names_of_mem_fields {c : String} (hf : f ∈ t.fields c) : c ∈ t.names := by
  unfold ClassTable.fields at hf
  cases hi : t.find? c with
  | none => simp [hi] at hf
  | some i => exact ClassTable.mem_names_of_find? hi

namespace Lifter

/-- Asks what is said of an object under the predicate of a field. -/
def fieldPattern (l : Lifter) (r : ObjectRef) (f : FieldInfo) : TriplePattern :=
  ⟨some (l.names.object r), some (l.fieldIri f), none⟩

/-- All that is said of an object under the predicate of a field is the value of the field, and
nothing is if that is null. -/
def Separates (l : Lifter) (s : State) : Prop :=
  ∀ guarded, ∀ o ∈ s.heap.objects, ∀ f ∈ l.table.fields o.ref.className, ∀ v,
    o.fields.get? f.name = some v →
      (l.stateSource s guarded (l.fieldPattern o.ref f)).map (·.object) =
        (l.names.lift? v).toList

lemma covers_fieldPattern : (l.fieldPattern r f).covers x ↔
    x.subject = l.names.object r ∧ x.predicate = l.fieldIri f := by
  rw [covers_iff, fieldPattern]
  constructor
  · rintro ⟨hsubject, hpredicate, -⟩
    exact ⟨(hsubject _ rfl).symm, (hpredicate _ rfl).symm⟩
  · rintro ⟨hsubject, hpredicate⟩
    refine ⟨fun a ha => ?_, fun a ha => ?_, by simp⟩
    · rw [hsubject, ← Option.some.inj ha]
    · rw [hpredicate, ← Option.some.inj ha]

/-- Of all objects and units, only those that a subject names are lifted. -/
lemma stateSource_object (hl : l.Proper t) (hs : s.Numbered) (ho : o ∈ s.heap.objects)
    (hp : p.subject = some (l.names.object o.ref)) : l.stateSource s guarded p =
      (l.objectTriples o ++
        (s.simulation.find? o.ref.serial).toList.flatMap l.unitTriples).filter p.covers := by
  have hguarded : l.stateSource s guarded p = l.stateSource s true p := by
    cases guarded with
    | true => rfl
    | false => exact (stateSource_subject hl hs (by simp [hp])).symm
  have hfind : s.heap.find? o.ref.serial = some o :=
    find?_of_nodup_map (fun d : Object => d.ref.serial) hs.objects ho
  rw [hguarded]
  simp [stateSource, candidates, hp, owner?_object (hs.objectWords o ho), hfind]

/-! ### Separate fields -/

lemma predicate_of_mem_unitTriples (hx : x ∈ l.unitTriples u) (hr : x.subject = l.names.object r) :
    ∃ w ∈ unitWords, x.predicate = l.names.word w := by
  cases mem_unitTriples.1 hx with
  | role => exact ⟨"roleName", by decide, rfl⟩
  | sample => exact ⟨"hasSample", by decide, rfl⟩
  | sampleRole | port | portName | value | time => simp [Namespaces.object] at hr

lemma filter_unitTriples (ht : FieldsApart l.table l.names)
    (hf : f ∈ l.table.fields o.ref.className) :
    (l.unitTriples u).filter (l.fieldPattern o.ref f).covers = [] := by
  refine List.filter_eq_nil_iff.2 fun x hx hcovers => ?_
  obtain ⟨hsubject, hpredicate⟩ := covers_fieldPattern.1 hcovers
  obtain ⟨w, hw, hword⟩ := predicate_of_mem_unitTriples hx hsubject
  exact ht.words _ (mem_names_of_mem_fields hf) f hf w hw (hpredicate.symm.trans hword)

/-- Of the triples of an object, those under the predicate of a field come from the field. -/
lemma filter_objectTriples (ht : FieldsApart t ns)
    (hn : ((t.fields o.ref.className).map (·.name)).Nodup) (hf : f ∈ t.fields o.ref.className) :
    ((plain t ns).objectTriples o).filter ((plain t ns).fieldPattern o.ref f).covers =
      (plain t ns).fieldTriples o f := by
  have hclass : ¬ ((plain t ns).fieldPattern o.ref f).covers
      ⟨ns.object o.ref, rdfType, ns.classIri o.ref.className⟩ := by
    rw [covers_fieldPattern]
    exact fun h => rdfType_ne_field h.2
  have hothers : ∀ g ∈ t.fields o.ref.className, (g == f) = false →
      ((plain t ns).fieldTriples o g).filter ((plain t ns).fieldPattern o.ref f).covers = [] := by
    intro g hg hne
    refine List.filter_eq_nil_iff.2 fun x hx hcovers => ?_
    rw [fieldTriples_plain] at hx
    obtain ⟨v, -, rfl⟩ := List.mem_map.1 hx
    have hjoined := field_eq_field_iff.1 (covers_fieldPattern.1 hcovers).2
    have heq := ht.fields _ (mem_names_of_mem_fields hf) g hg f hf hjoined
    simp [heq] at hne
  have hone : (t.fields o.ref.className).filter (· == f) = [f] := by
    rw [List.filter_beq, List.count_eq_one_of_mem (List.Nodup.of_map _ hn) hf]
    rfl
  have hown : ((plain t ns).fieldTriples o f).filter
      ((plain t ns).fieldPattern o.ref f).covers = (plain t ns).fieldTriples o f := by
    refine List.filter_eq_self.2 fun x hx => ?_
    rw [fieldTriples_plain] at hx
    obtain ⟨v, -, rfl⟩ := List.mem_map.1 hx
    exact covers_fieldPattern.2 ⟨rfl, rfl⟩
  calc ((plain t ns).objectTriples o).filter ((plain t ns).fieldPattern o.ref f).covers
      = ((t.fields o.ref.className).flatMap ((plain t ns).fieldTriples o)).filter
          ((plain t ns).fieldPattern o.ref f).covers := by
        rw [objectTriples, templateTriples_plain, List.append_nil]
        exact List.filter_cons_of_neg hclass
    _ = (((t.fields o.ref.className).filter (· == f)).flatMap ((plain t ns).fieldTriples o)).filter
          ((plain t ns).fieldPattern o.ref f).covers := (filter_flatMap_filter hothers).symm
    _ = (plain t ns).fieldTriples o f := by
        rw [hone, List.flatMap_singleton, hown]

lemma separates_of_fieldsApart (ht : FieldsApart t ns) (hn : ∀ c, ((t.fields c).map (·.name)).Nodup)
    (hl : (plain t ns).Proper t) (hs : s.Numbered) : (plain t ns).Separates s := by
  intro guarded o ho f hf v hv
  have hunits : ((s.simulation.find? o.ref.serial).toList.flatMap (plain t ns).unitTriples).filter
      ((plain t ns).fieldPattern o.ref f).covers = [] := by
    cases s.simulation.find? o.ref.serial with
    | none => rfl
    | some u => simpa using filter_unitTriples (l := plain t ns) ht hf
  have hterm : (plain t ns).fieldTerm? o f.name = ns.lift? v := by
    rw [fieldTerm?, hv, Option.bind_some]
    rfl
  rw [stateSource_object hl hs ho rfl, List.filter_append, hunits, List.append_nil,
    filter_objectTriples ht (hn _) hf, fieldTriples_plain, hterm, List.map_map]
  exact List.map_id _

/-! ### Fields that mix -/

/-- The fields of a class with a value for each. -/
def filled (t : ClassTable) (c : String) (v : FieldInfo → Value) : Fields :=
  (t.fields c).map fun f => (f.name, v f)

/-- A simulation unit with a sample. -/
def sampledUnit (c : String) : SimUnit := ⟨⟨1, c⟩, "", [⟨"", .null, ⟨0⟩⟩]⟩

/-- One object, which is a simulation unit as well. -/
def sampledState (c : String) (fields : Fields) : State :=
  { State.empty with heap := ⟨[⟨⟨1, c⟩, fields⟩], 2⟩, simulation := [sampledUnit c] }

lemma numbered_sampledState {c : String} {fields : Fields} :
    (sampledState c fields).Numbered := by
  constructor <;> simp [sampledState, sampledUnit, UInt64.size]

lemma get?_map_of_nodup {fs : List FieldInfo} (v : FieldInfo → Value)
    (hn : (fs.map (·.name)).Nodup) (hf : f ∈ fs) :
    Fields.get? (fs.map fun g => (g.name, v g)) f.name = some (v f) := by
  have hn' : ((fs.map fun g => (g.name, v g)).map Prod.fst).Nodup := by rwa [List.map_map]
  exact congrArg (Option.map Prod.snd)
    (find?_of_nodup_map Prod.fst hn' (List.mem_map_of_mem (f := fun g => (g.name, v g)) hf))

lemma get?_filled {c : String} (v : FieldInfo → Value) (hn : ((t.fields c).map (·.name)).Nodup)
    (hf : f ∈ t.fields c) : (filled t c v).get? f.name = some (v f) := get?_map_of_nodup v hn hf

/-- Where fields do not mix, nothing is said under the predicate of a field that is null. -/
lemma Separates.ne {v : FieldInfo → Value} {c : String}
    (h : (plain t ns).Separates (sampledState c (filled t c v)))
    (hn : ((t.fields c).map (·.name)).Nodup) (hf : f ∈ t.fields c) (hv : v f = .null)
    (hx : x ∈ (plain t ns).objectTriples ⟨⟨1, c⟩, filled t c v⟩ ∨
      x ∈ (plain t ns).unitTriples (sampledUnit c)) :
    ¬ (x.subject = ns.object ⟨1, c⟩ ∧ x.predicate = ns.field f.declaring f.name) := by
  intro hnames
  have hnothing := h false _ (List.mem_singleton_self _) f hf .null (hv ▸ get?_filled v hn hf)
  have hmem : x ∈ (plain t ns).stateSource (sampledState c (filled t c v)) false
      ((plain t ns).fieldPattern ⟨1, c⟩ f) := by
    refine List.mem_filter.2 ⟨?_, covers_fieldPattern.2 hnames⟩
    simpa [candidates, sampledState] using hx
  have hobject := List.mem_map_of_mem (f := Triple.object) hmem
  rw [hnothing] at hobject
  exact absurd hobject (by simp [Namespaces.lift?])

lemma fieldsApart_of_separates (hn : ∀ c, ((t.fields c).map (·.name)).Nodup)
    (h : ∀ c v, (plain t ns).Separates (sampledState c (filled t c v))) :
    FieldsApart t ns where
  fields := by
    intro c hc f hf g hg hjoined
    by_contra hne
    -- all fields are null but one that has the same predicate
    refine (h c fun e => if e = g then .int 0 else .null).ne (hn c) hf (if_neg hne)
      (x := ⟨ns.object ⟨1, c⟩, ns.field g.declaring g.name, .integer 0⟩) (.inl ?_)
      ⟨rfl, field_eq_field_iff.2 hjoined.symm⟩
    refine List.mem_append_left _ (List.mem_cons_of_mem _ (List.mem_flatMap.2 ⟨g, hg, ?_⟩))
    rw [fieldTriples_plain, fieldTerm?, get?_filled _ (hn c) hg]
    simp [plain, Namespaces.lift?]
  words := by
    intro c hc f hf w hw hword
    obtain ⟨a, ha⟩ : ∃ a, ⟨ns.object ⟨1, c⟩, ns.word w, a⟩ ∈
        (plain t ns).unitTriples (sampledUnit c) := by
      simp only [unitWords, List.mem_cons, List.not_mem_nil, or_false] at hw
      rcases hw with rfl | rfl
      · exact ⟨_, mem_unitTriples.2 .role⟩
      · exact ⟨_, mem_unitTriples.2 (.sample List.mem_cons_self)⟩
    exact (h c fun _ => .null).ne (hn c) hf rfl (.inr ha) ⟨rfl, hword.symm⟩

/-- **When fields do not mix.** In a program without annotations, what is said of an object under
the predicate of a field is the value of the field, in every state whose objects have the fields of
their classes, exactly if no class has two fields of one predicate or a field with a predicate that
is said of simulation units. -/
theorem separates_iff {p : Program.Source} {prefixes : Prefixes} (hb : p.build = .ok t)
    (hp : p.Unannotated) : ∃ l, new t ns prefixes = .ok l ∧
      ((∀ s, s.Numbered → Furnished t s → l.Separates s) ↔ FieldsApart t ns) := by
  have hn := (proper_of_build hb).fields
  have hl : new t ns prefixes = .ok (plain t ns) := new_eq_plain (models_of_build hb hp)
  refine ⟨plain t ns, hl, fun h => ?_, fun h s hs _ => ?_⟩
  · refine fieldsApart_of_separates hn fun c v => h _ numbered_sampledState fun o ho f hf => ?_
    rw [List.mem_singleton.1 ho] at hf ⊢
    rw [get?_filled v (hn c) hf, Option.isSome_some]
  · exact separates_of_fieldsApart h hn (proper_of_new hl) hs

/-- A pump with the rate of its valve, and a class for valves of pumps with a rate. -/
def pumpProgram (parent : Option String) : Program.Source :=
  ⟨[⟨"Pump", none, [⟨"Valve_rate", "Int", ""⟩], [], "", false⟩,
    ⟨"Pump_Valve", parent, [⟨"rate", "Int", ""⟩], [], "", false⟩], some (.skip 1)⟩

def pumpNames : Namespaces := ⟨"urn:prog#", "urn:run#", "urn:smol#", "urn:dom#"⟩

/-- The two fields have one predicate, and do not mix as long as no class has both. -/
theorem separates_iff_pump : ∃ t l, (pumpProgram none).build = .ok t ∧
    (pumpProgram none).Unannotated ∧ new t pumpNames .empty = .ok l ∧ FieldsApart t pumpNames ∧
      ∀ s, s.Numbered → Furnished t s → l.Separates s := by
  obtain ⟨t, l, hb, hl, hapart⟩ := exists_new_of_build (pumpProgram none) pumpNames .empty
    (fun l => decide (FieldsApart l.table pumpNames)) true (by decide +kernel)
  rw [decide_eq_true_eq, (proper_of_new hl).table] at hapart
  have hplain : (pumpProgram none).Unannotated := by decide
  obtain ⟨k, hk, hiff⟩ : ∃ k, new t pumpNames .empty = .ok k ∧ (_ ↔ FieldsApart t pumpNames) :=
    separates_iff hb hplain
  have hsame : k = l := Except.ok.inj (hk.symm.trans hl)
  exact ⟨t, l, hb, hplain, hl, hapart, hsame ▸ hiff.2 hapart⟩

/-- A pump that is a valve as well; no rate is set for its valve. -/
def pumpState : State :=
  { State.empty with
    heap := ⟨[⟨⟨0, entryClass⟩, []⟩,
      ⟨⟨1, "Pump_Valve"⟩, [("Valve_rate", .null), ("rate", .int 2)]⟩], 2⟩ }

/-- Its own rate is taken for that of its valve. -/
theorem pump_rates_mixed : ∃ t l, (pumpProgram (some "Pump")).build = .ok t ∧
    (pumpProgram (some "Pump")).Unannotated ∧ new t pumpNames .empty = .ok l ∧
      pumpState.Numbered ∧ Furnished t pumpState ∧
      ⟨"Valve_rate", "Int", "Pump"⟩ ∈ t.fields "Pump_Valve" ∧
      (l.stateSource pumpState true (l.fieldPattern ⟨1, "Pump_Valve"⟩
        ⟨"Valve_rate", "Int", "Pump"⟩)).map (·.object) = [.integer 2] ∧
      ¬ l.Separates pumpState := by
  have hplain : (pumpProgram (some "Pump")).Unannotated := by decide
  obtain ⟨t, l, hb, hl, hrun⟩ := exists_new_of_build (pumpProgram (some "Pump")) pumpNames .empty
    (fun l => (l.table.fields "Pump_Valve", (l.stateSource pumpState true
      (l.fieldPattern ⟨1, "Pump_Valve"⟩ ⟨"Valve_rate", "Int", "Pump"⟩)).map (·.object)))
    ([⟨"Valve_rate", "Int", "Pump"⟩, ⟨"rate", "Int", "Pump_Valve"⟩], [.integer 2])
    (by decide +kernel)
  obtain ⟨hfields, hobjects⟩ := Prod.mk.inj hrun
  have hrate : ⟨"Valve_rate", "Int", "Pump"⟩ ∈ l.table.fields "Pump_Valve" := by
    rw [hfields]
    exact List.mem_cons_self
  have hmixed : ¬ l.Separates pumpState := by
    intro h
    have hnone := h true _ (List.mem_cons_of_mem _ List.mem_cons_self) _ hrate .null rfl
    rw [hobjects] at hnone
    simp [Namespaces.lift?] at hnone
  rw [(proper_of_new hl).table] at hfields hrate
  refine ⟨t, l, hb, hplain, hl, ?_, fun o ho f hf => ?_, hrate, hobjects, hmixed⟩
  · constructor <;> simp [pumpState, State.empty, UInt64.size]
  · simp only [pumpState, List.mem_cons, List.not_mem_nil, or_false] at ho
    rcases ho with rfl | rfl
    · simp [(proper_of_build hb).entry] at hf
    · simp only [hfields, List.mem_cons, List.not_mem_nil, or_false] at hf
      rcases hf with rfl | rfl <;> rfl

end Lifter

end Semlift.Lift
