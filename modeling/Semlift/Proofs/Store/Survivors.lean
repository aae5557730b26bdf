import Semlift.Proofs.Store.Reachable

/-!
What a collection leaves. Marking finds exactly what a state leads to, also where references dangle
or fields lead in circles. So a collection keeps the objects that the state leads to and erases the
others with their simulation units, and changes nothing else.
-/

namespace Semlift.Store

open Semlift.Lang

def Heap.serials (h : Heap) : List Nat := h.objects.map (·.ref.serial)

namespace State

variable {s : State} {o : Object} {u : SimUnit} {r : ObjectRef} {n m : Nat}

/-- The state leads to an object with the serial number, be it alive or not. -/
def Leads (s : State) (n : Nat) : Prop := ∃ r, s.Reachable r ∧ r.serial = n

/-! ### Marking -/

lemma mem_roots : r ∈ s.roots ↔ s.root = some r ∨ ∃ f ∈ s.stack, f.owner = r ∨
    (∃ name, (name, .object r) ∈ f.locals) ∨ ∃ a, f.active = some a ∧ a.Mentions r := by
  simp only [roots, Frame.roots, List.mem_append, Option.mem_toList, List.mem_flatMap,
    List.cons_append, List.mem_cons, Fields.mem_refs, @eq_comm _ r]
  refine or_congr .rfl (exists_congr fun f => and_congr_right fun _ => or_congr .rfl ?_)
  refine or_congr ?_ ?_
  · constructor
    · rintro ⟨⟨name, v⟩, he, rfl⟩
      exact ⟨name, he⟩
    · rintro ⟨name, he⟩
      exact ⟨_, he, rfl⟩
  · cases f.active <;> simp [Stmt.mem_refs]

lemma reachable_of_mem_roots (hr : r ∈ s.roots) : s.Reachable r := by
  rcases mem_roots.1 hr with hroot | ⟨f, hf, rfl | ⟨name, he⟩ | ⟨a, ha, hm⟩⟩
  · exact .root hroot
  · exact .owner hf
  · exact .variable hf he
  · exact .active hf ha hm

lemma mem_edges {h : Heap} : (n, m) ∈ h.edges ↔ ∃ o ∈ h.objects, o.ref.serial = n ∧
    ∃ name r, (name, .object r) ∈ o.fields ∧ r.serial = m := by
  simp only [Heap.edges, List.mem_flatMap, List.mem_map, Fields.mem_refs, Prod.mk.injEq]
  constructor
  · rintro ⟨o, ho, r, ⟨⟨name, v⟩, he, rfl⟩, rfl, rfl⟩
    exact ⟨o, ho, rfl, name, r, he, rfl⟩
  · rintro ⟨o, ho, rfl, name, r, he, rfl⟩
    exact ⟨o, ho, r, ⟨_, he, rfl⟩, rfl, rfl⟩

/-- **Marking is exact**: the marked numbers are those that the state leads to. -/
theorem mem_marked_iff (hs : s.heap.serials.Nodup) : n ∈ s.marked ↔ s.Leads n := by
  constructor
  · refine search_subset (P := s.Leads) (by simp) (fun a ha => ?_) (fun a b hab => ?_) n
    · obtain ⟨r, hr, rfl⟩ := List.mem_map.1 ha
      exact ⟨r, reachable_of_mem_roots hr, rfl⟩
    · -- what is found under the number of an edge is the object that the edge begins at
      rintro ⟨x, hx, rfl⟩
      obtain ⟨o, ho, hser, name, r, he, rfl⟩ := mem_edges.1 hab
      have hfind : s.heap.find? x.serial = some o :=
        hser ▸ find?_of_nodup_map (fun d : Object => d.ref.serial) hs ho
      have hfields : s.heap.fields? x = some o.fields := by
        rw [Heap.fields?, hfind, Option.map_some]
      exact ⟨r, .field hx hfields he, rfl⟩
  · rintro ⟨r, hr, rfl⟩
    induction hr with
    | @root r h => exact mem_marked_of_root (by simp [roots, h])
    | owner hf => exact mem_marked_of_root (mem_roots_owner hf)
    | «variable» hf h => exact mem_marked_of_root (mem_roots_local hf h rfl)
    | active hf ha h => exact mem_marked_of_root (mem_roots_active hf ha (Stmt.mem_refs.2 h))
    | @field r _ _ _ _ hfields h ih =>
      obtain ⟨o, ho, rfl⟩ := Option.map_eq_some_iff.1 hfields
      obtain ⟨hmem, hser⟩ := Heap.mem_of_find? ho
      exact mem_marked_of_field (hser ▸ ih) hmem h rfl

lemma Leads.field {name : String} (h : s.Leads o.ref.serial) (hs : s.heap.serials.Nodup)
    (ho : o ∈ s.heap.objects) (he : (name, .object r) ∈ o.fields) : s.Leads r.serial :=
  (mem_marked_iff hs).1 (mem_marked_of_field ((mem_marked_iff hs).2 h) ho he rfl)

/-! ### Sweeping -/

lemma mem_map_garbage : n ∈ s.garbage.map (·.serial) ↔ n ∈ s.heap.serials ∧ n ∉ s.marked := by
  simp only [garbage, Heap.serials, List.mem_map, List.mem_filter, Bool.not_eq_true',
    List.contains_eq_mem, decide_eq_false_iff_not]
  constructor
  · rintro ⟨r, ⟨⟨o, ho, rfl⟩, hm⟩, rfl⟩
    exact ⟨⟨o, ho, rfl⟩, hm⟩
  · rintro ⟨⟨o, ho, rfl⟩, hm⟩
    exact ⟨o.ref, ⟨⟨o, ho, rfl⟩, hm⟩, rfl⟩

lemma length_garbage (s : State) :
    s.garbage.length = (s.heap.objects.filter fun o => !s.marked.contains o.ref.serial).length := by
  rw [garbage, List.filter_map, List.length_map]
  rfl

lemma simulation_foldl_erase (units : Simulation) (gone : List ObjectRef) :
    gone.foldl Simulation.erase units =
      units.filter fun u => !(gone.map (·.serial)).contains u.ref.serial := by
  induction gone generalizing units with
  | nil => exact (List.filter_eq_self.2 (by simp)).symm
  | cons d gone ih =>
    rw [List.foldl_cons, ih, Simulation.erase, List.filter_filter]
    refine List.filter_congr fun u _ => ?_
    by_cases hd : u.ref.serial = d.serial <;> simp [hd]

lemma mem_objects_collect (hs : s.heap.serials.Nodup) :
    o ∈ s.collect.2.heap.objects ↔ o ∈ s.heap.objects ∧ s.Leads o.ref.serial := by
  rw [objects_collect, List.mem_filter, List.contains_iff_mem, mem_marked_iff hs]

lemma mem_serials_collect (hs : s.heap.serials.Nodup) :
    n ∈ s.collect.2.heap.serials ↔ n ∈ s.heap.serials ∧ s.Leads n := by
  simp only [Heap.serials, List.mem_map, mem_objects_collect hs]
  constructor
  · rintro ⟨o, ⟨ho, hn⟩, rfl⟩
    exact ⟨⟨o, ho, rfl⟩, hn⟩
  · rintro ⟨⟨o, ho, rfl⟩, hn⟩
    exact ⟨o, ⟨ho, hn⟩, rfl⟩

/-- A unit goes only with its object. -/
lemma mem_simulation_collect (hs : s.heap.serials.Nodup) :
    u ∈ s.collect.2.simulation ↔
      u ∈ s.simulation ∧ (u.ref.serial ∈ s.heap.serials → s.Leads u.ref.serial) := by
  rw [collect, simulation_foldl_erase, List.mem_filter, Bool.not_eq_true',
    List.contains_eq_mem, decide_eq_false_iff_not, mem_map_garbage, mem_marked_iff hs, not_and,
    Classical.not_not]

/-- A state with a dangling variable, a circle of objects that it leads to through a statement, and
a circle that it does not lead to. -/
def ringState : State where
  stack := [⟨some (.print 1 (.lit (.object ⟨1, "Ring"⟩))), [("x", .object ⟨9, "Ring"⟩)],
    ⟨0, Program.entryClass⟩, 0, true⟩]
  heap := ⟨[⟨⟨0, Program.entryClass⟩, []⟩, ⟨⟨1, "Ring"⟩, [("next", .object ⟨2, "Ring"⟩)]⟩,
    ⟨⟨2, "Ring"⟩, [("next", .object ⟨1, "Ring"⟩)]⟩, ⟨⟨3, "Ring"⟩, [("next", .object ⟨4, "Ring"⟩)]⟩,
    ⟨⟨4, "Ring"⟩, [("next", .object ⟨3, "Ring"⟩)]⟩], 10⟩
  simulation := [⟨⟨2, "Ring"⟩, "kept", []⟩, ⟨⟨3, "Ring"⟩, "lost", []⟩, ⟨⟨9, "Ring"⟩, "stray", []⟩]
  root := some ⟨0, Program.entryClass⟩
  nextFrame := 1

/-- Every reference that the state or one of its simulation units holds is to a live object. -/
structure Live (s : State) : Prop where
  held : ∀ r, s.Holds r → r.serial ∈ s.heap.serials
  units : ∀ u ∈ s.simulation, u.ref.serial ∈ s.heap.serials
  samples : ∀ u ∈ s.simulation, ∀ a ∈ u.samples, ∀ r, a.value = .object r →
    r.serial ∈ s.heap.serials

lemma holds_iff : s.Holds r ↔ r ∈ s.roots ∨ ∃ o ∈ s.heap.objects, r ∈ o.fields.refs := by
  rw [mem_roots]
  constructor
  · intro h
    cases h with
    | root h => exact .inl (.inl h)
    | owner hf h => exact .inl (.inr ⟨_, hf, .inl h⟩)
    | «variable» hf h => exact .inl (.inr ⟨_, hf, .inr (.inl ⟨_, h⟩)⟩)
    | active hf ha h => exact .inl (.inr ⟨_, hf, .inr (.inr ⟨_, ha, h⟩)⟩)
    | field ho h => exact .inr ⟨_, ho, Fields.mem_refs.2 ⟨_, h, rfl⟩⟩
  · rintro ((h | ⟨f, hf, h | ⟨name, h⟩ | ⟨a, ha, h⟩⟩) | ⟨o, ho, h⟩)
    · exact .root h
    · exact .owner hf h
    · exact .variable hf h
    · exact .active hf ha h
    · obtain ⟨⟨name, v⟩, he, rfl⟩ := Fields.mem_refs.1 h
      exact .field ho he

lemma live_iff : s.Live ↔ (∀ r ∈ s.roots, r.serial ∈ s.heap.serials) ∧
    (∀ o ∈ s.heap.objects, ∀ r ∈ o.fields.refs, r.serial ∈ s.heap.serials) ∧
    ∀ u ∈ s.simulation, u.ref.serial ∈ s.heap.serials ∧
      ∀ a ∈ u.samples, ∀ r ∈ a.value.object?, r.serial ∈ s.heap.serials := by
  have hvalue : ∀ (v : Value) r, r ∈ v.object? ↔ v = .object r := by
    rintro (_ | _ | _ | _ | _ | d) r <;> simp [Value.object?]
  simp only [hvalue]
  constructor
  · intro h
    exact ⟨fun r hr => h.held r (holds_iff.2 (.inl hr)),
      fun o ho r hr => h.held r (holds_iff.2 (.inr ⟨o, ho, hr⟩)),
      fun u hu => ⟨h.units u hu, h.samples u hu⟩⟩
  · rintro ⟨hroots, hfields, hunits⟩
    refine ⟨fun r hr => ?_, fun u hu => (hunits u hu).1, fun u hu => (hunits u hu).2⟩
    rcases holds_iff.1 hr with hr | ⟨o, ho, hr⟩
    · exact hroots r hr
    · exact hfields o ho r hr

instance : Decidable s.Live := decidable_of_iff' _ live_iff

/-- The samples of the units that a collection leaves hold no other objects than it leaves. -/
def SamplesLed (s : State) : Prop :=
  ∀ u ∈ s.simulation, s.Leads u.ref.serial → ∀ a ∈ u.samples, ∀ r, a.value = .object r →
    s.Leads r.serial

end State

end Semlift.Store
