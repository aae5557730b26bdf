import Semlift.Lift.Source
import Semlift.Program.Build
import Semlift.Proofs.Lift.Template
import Semlift.Proofs.Lift.Units
import Semlift.Proofs.Store.Alive
import Semlift.Proofs.Text.Numerals

/-!
Guards for subjects. The triples of an object or of a simulation unit are about the object itself
or about blank nodes with labels of its own, and the serial number can be read off any of them. So a
guard that looks at nothing but the owner of a subject, or at nothing but the classes whose
declaration has it, leaves nothing out.
-/

namespace Semlift.Store

/-- Objects have serial numbers of their own, units too, and each of them is a word. -/
structure State.Numbered (s : State) : Prop where
  objects : (s.heap.objects.map (·.ref.serial)).Nodup
  units : (s.simulation.map (·.ref.serial)).Nodup
  objectWords : ∀ o ∈ s.heap.objects, o.ref.serial < UInt64.size
  unitWords : ∀ u ∈ s.simulation, u.ref.serial < UInt64.size

end Semlift.Store

namespace Semlift.Lift

open Semlift.Program Semlift.Rdf Semlift.Store Semlift.Text

variable {l : Lifter} {t : ClassTable} {s : State} {r : ObjectRef} {o : Object} {u : SimUnit}
  {x : Triple} {p : TriplePattern} {n : Nat}

/-! ### Leaving out early -/

section LeavingOut

variable {α β : Type} {as : List α} {keep : α → Bool} {f : α → List β} {q : β → Bool}

/-- What gives nothing that is wanted may be left out before anything is made of it. -/
lemma filter_flatMap_filter (h : ∀ a ∈ as, keep a = false → (f a).filter q = []) :
    ((as.filter keep).flatMap f).filter q = (as.flatMap f).filter q := by
  induction as with
  | nil => rfl
  | cons a as ih =>
    have ih := ih fun b hb => h b (by simp [hb])
    cases hk : keep a with
    | true => rw [List.filter_cons_of_pos hk, List.flatMap_cons, List.flatMap_cons,
        List.filter_append, List.filter_append, ih]
    | false => rw [List.filter_cons_of_neg (by simp [hk]), List.flatMap_cons, List.filter_append,
        h a (by simp) hk, List.nil_append, ih]

end LeavingOut

/-! ### Reading serial numbers off names -/

lemma Namespaces.object_eq_object_iff {ns : Namespaces} {d : ObjectRef} :
    ns.object r = ns.object d ↔ r.serial = d.serial := by
  simp only [object, ObjectRef.name, Term.iri.injEq, String.append_right_inj]
  exact ⟨fun h => natText_injective h, fun h => congrArg Number.natText h⟩

/-- What follows the name of an object may go on with an underscore only. -/
lemma serial?_name {more : List Char} (hr : r.serial < UInt64.size)
    (hm : more.takeWhile (· != '_') = []) : serial? (r.name.toList ++ more) = some r.serial := by
  have hdigits : ∀ c ∈ (Number.natText r.serial).toList, (c != '_') = true := by
    intro c hc
    simp only [bne_iff_ne]
    rintro rfl
    exact underscore_notMem_natText hc
  have hpre : afterPrefix? "obj".toList (r.name.toList ++ more) =
      some ((Number.natText r.serial).toList ++ more) := by
    rw [afterPrefix?_eq_some_iff, ObjectRef.name, String.toList_append, List.append_assoc]
  rw [serial?, hpre]
  simp only [Option.bind_eq_bind, Option.bind_some]
  rw [List.takeWhile_append_of_pos hdigits, hm, List.append_nil, wordValue?_natText hr]

namespace Lifter

lemma owner?_object (hr : r.serial < UInt64.size) :
    l.owner? (l.names.object r) = some r.serial := by
  have hpre : afterPrefix? l.names.run.toList (l.names.run ++ r.name).toList =
      some r.name.toList := by
    rw [afterPrefix?_eq_some_iff, String.toList_append]
  have hplain : r.name.toList.contains '_' = false := by
    have := underscore_notMem_natText (n := r.serial)
    simp [ObjectRef.name, this]
  have hname : serial? (r.name.toList ++ []) = some r.serial := serial?_name hr rfl
  rw [List.append_nil] at hname
  simp only [owner?, Namespaces.object, hpre, Option.bind_eq_bind, Option.bind_some, hplain,
    Bool.false_eq_true, if_false, hname]

lemma owner?_blank {label : String} (hr : r.serial < UInt64.size)
    (hl : label.toList.head? = some '_') :
    l.owner? (.blank (r.name ++ label)) = some r.serial := by
  rw [owner?, String.toList_append]
  refine serial?_name hr ?_
  cases hc : label.toList with
  | nil => rfl
  | cons c cs =>
    rw [hc, List.head?_cons, Option.some.injEq] at hl
    simp [hl]

/-! ### Whose triples they are -/

lemma subject_of_mem_fieldTriples {f : FieldInfo} (hx : x ∈ l.fieldTriples o f) :
    x.subject = l.names.object o.ref := by
  unfold fieldTriples at hx
  split at hx
  · simp at hx
  · simp only [List.mem_cons, List.mem_map, Option.mem_toList] at hx
    rcases hx with rfl | ⟨q, -, rfl⟩ <;> rfl

lemma owner?_of_mem_templateTriples (hl : l.Proper t) (hr : o.ref.serial < UInt64.size)
    (hx : x ∈ l.templateTriples o) : l.owner? x.subject = some o.ref.serial := by
  unfold templateTriples at hx
  split at hx
  · simp at hx
  · rename_i T hT
    rcases Template.subject_of_mem_instantiate (hl.template? hT) hx with hs | ⟨label, hs⟩
    · rw [hs, owner?_object hr]
    · rw [hs, String.append_assoc]
      exact owner?_blank hr (by simp)

/-- **All triples of an object are its own.** -/
theorem owner?_of_mem_objectTriples (hl : l.Proper t) (hr : o.ref.serial < UInt64.size)
    (hx : x ∈ l.objectTriples o) : l.owner? x.subject = some o.ref.serial := by
  simp only [objectTriples, List.cons_append, List.mem_cons, List.mem_append,
    List.mem_flatMap] at hx
  rcases hx with rfl | ⟨f, -, hx⟩ | hx
  · exact owner?_object hr
  · rw [subject_of_mem_fieldTriples hx, owner?_object hr]
  · exact owner?_of_mem_templateTriples hl hr hx

lemma owner?_of_mem_unitTriples (hr : u.ref.serial < UInt64.size) (hx : x ∈ l.unitTriples u) :
    l.owner? x.subject = some u.ref.serial := by
  have hnode (i : Nat) : l.owner? (.blank (sampleLabel u i)) = some u.ref.serial := by
    rw [sampleLabel, String.append_assoc]
    exact owner?_blank hr (by simp)
  have hport (i : Nat) : l.owner? (.blank (sampleLabel u i ++ "_port")) = some u.ref.serial := by
    rw [sampleLabel, String.append_assoc, String.append_assoc]
    exact owner?_blank hr (by simp)
  cases mem_unitTriples.1 hx with
  | role | sample => exact owner?_object hr
  | sampleRole | port | value | time => exact hnode _
  | portName => exact hport _

/-! ### The guards -/

lemma covers_iff :
    p.covers x ↔ (∀ a, p.subject = some a → a = x.subject) ∧
      (∀ a, p.predicate = some a → a = x.predicate) ∧ ∀ a, p.object = some a → a = x.object := by
  simp only [TriplePattern.covers, TriplePattern.fits, Bool.and_eq_true, Option.all_eq_true,
    beq_iff_eq, and_assoc]

/-- Whoever is not the owner of a subject has no triples of it. -/
lemma filter_covers_eq_nil {a : Term} {ts : List Triple} (ha : p.subject = some a)
    (ho : ∀ x ∈ ts, l.owner? x.subject = some n) (hn : (l.owner? a == some n) = false) :
    ts.filter p.covers = [] := by
  refine List.filter_eq_nil_iff.2 fun x hx hc => ?_
  rw [(covers_iff.1 hc).1 a ha, ho x hx] at hn
  simp at hn

lemma candidates_subject {a : Term} (hs : s.Numbered) (ha : p.subject = some a) :
    l.candidates s true p =
      (s.heap.objects.filter fun o => l.owner? a == some o.ref.serial,
        s.simulation.filter fun u => l.owner? a == some u.ref.serial) := by
  simp only [candidates, ha, Bool.not_true, Bool.false_eq_true, if_false]
  cases ho : l.owner? a with
  | none => simp
  | some n =>
    have hcomm : ∀ k : Nat, (some n == some k) = (k == n) := by
      intro k
      rw [Option.some_beq_some, BEq.comm]
    simp only [hcomm]
    rw [Heap.find?, toList_find?_of_nodup _ hs.objects, Simulation.find?,
      toList_find?_of_nodup _ hs.units]

lemma stateSource_subject (hl : l.Proper t) (hs : s.Numbered) (hp : p.subject.isSome) :
    l.stateSource s true p = l.stateSource s false p := by
  obtain ⟨a, ha⟩ := Option.isSome_iff_exists.1 hp
  simp only [stateSource, candidates_subject hs ha, List.filter_append]
  rw [filter_flatMap_filter, filter_flatMap_filter]
  · rfl
  · exact fun u hu => filter_covers_eq_nil ha fun x hx =>
      owner?_of_mem_unitTriples (hs.unitWords u hu) hx
  · exact fun o ho => filter_covers_eq_nil ha fun x hx =>
      owner?_of_mem_objectTriples hl (hs.objectWords o ho) hx

lemma tableSource_subject (hp : p.subject.isSome) :
    l.tableSource true p = l.tableSource false p := by
  obtain ⟨a, ha⟩ := Option.isSome_iff_exists.1 hp
  simp only [tableSource, ha, classesOf]
  refine filter_flatMap_filter fun c _ hc => List.filter_eq_nil_iff.2 fun x hx hcov => ?_
  rw [List.any_eq_false] at hc
  exact hc x hx (beq_iff_eq.2 ((covers_iff.1 hcov).1 a ha).symm)

/-- What a program is lifted with is computed from its text. -/
lemma exists_new_of_build {α : Type} (p : Program.Source) (names : Namespaces)
    (prefixes : Prefixes) (f : Lifter → α) (a : α)
    (h : (p.build.toOption.bind fun t => (new t names prefixes).toOption.map f) = some a) :
    ∃ t l, p.build = .ok t ∧ new t names prefixes = .ok l ∧ f l = a := by
  cases hb : p.build with
  | error e => simp [hb, Except.toOption] at h
  | ok t =>
    cases hl : new t names prefixes with
    | error e => simp [hb, hl, Except.toOption] at h
    | ok l =>
      simp only [hb, hl, Except.toOption, Option.bind_some, Option.map_some,
        Option.some.injEq] at h
      exact ⟨t, l, rfl, hl, h⟩

/-- The instances of a class with a template that speaks of a blank node. -/
def boxProgram : Program.Source :=
  ⟨[⟨"Box", none, [⟨"size", "Int", ""⟩], [], "<urn:holds> [ <urn:size> %size ]", false⟩],
    some (.skip 1)⟩

/-- A live box whose serial number is not its place. -/
def boxState : State :=
  { State.empty with heap := ⟨[⟨⟨0, entryClass⟩, []⟩, ⟨⟨7, "Box"⟩, [("size", .int 1)]⟩], 8⟩ }

end Lifter

end Semlift.Lift
