import Semlift.Proofs.Lang.Mentions
import Semlift.Proofs.Search
import Semlift.Proofs.Store.Alive

/-!
States without dangling references. A state holds a reference where one can be read from it later:
as its root, in a frame or in a field of an object. In a sound state all of them are alive, and a
collection, which keeps what the roots lead to, keeps the state sound.
-/

namespace Semlift.Store

open Semlift.Lang Semlift.Program

variable {t : ClassTable} {h g : Heap} {f : Frame} {s : State} {a : Stmt} {r : ObjectRef} {n : Nat}

/-- All objects that a statement mentions are alive. -/
def Heap.Backs (h : Heap) (a : Stmt) : Prop := ∀ r ∈ a.refs, h.Alive r

lemma Heap.Backs.mono (ha : h.Backs a) (hg : h.Keeps g) : g.Backs a := fun r hr => hg r (ha r hr)

structure Frame.Sound (h : Heap) (f : Frame) : Prop where
  owner : h.Alive f.owner
  locals : ∀ e ∈ f.locals, h.Supports e.2
  active : ∀ a, f.active = some a → h.Backs a

lemma Frame.Sound.mono (hf : f.Sound h) (hg : h.Keeps g) : f.Sound g where
  owner := hg _ hf.owner
  locals := fun e he => (hf.locals e he).mono hg
  active := fun a ha => (hf.active a ha).mono hg

lemma Frame.Sound.withActive {residual : Option Stmt} (hf : f.Sound h)
    (hr : ∀ a, residual = some a → h.Backs a) : Frame.Sound h { f with active := residual } :=
  ⟨hf.owner, hf.locals, hr⟩

/-- The places where a state holds a reference. -/
inductive State.Holds (s : State) (r : ObjectRef) : Prop where
  | root : s.root = some r → Holds s r
  | owner {f : Frame} : f ∈ s.stack → f.owner = r → Holds s r
  | variable {f : Frame} {name : String} :
      f ∈ s.stack → (name, .object r) ∈ f.locals → Holds s r
  | active {f : Frame} {a : Stmt} :
      f ∈ s.stack → f.active = some a → a.Mentions r → Holds s r
  | field {o : Object} {name : String} :
      o ∈ s.heap.objects → (name, .object r) ∈ o.fields → Holds s r

structure State.Sound (t : ClassTable) (s : State) : Prop where
  heap : s.heap.Sound t
  root : ∀ r, s.root = some r → s.heap.Alive r
  frames : ∀ f ∈ s.stack, f.Sound s.heap

namespace State

/-- **Nothing dangles** in a sound state. -/
theorem Sound.alive (hs : s.Sound t) (hr : s.Holds r) : s.heap.Alive r := by
  cases hr with
  | root h => exact hs.root r h
  | owner hf h => exact h ▸ (hs.frames _ hf).owner
  | «variable» hf h => exact Heap.supports_object.1 ((hs.frames _ hf).locals _ h)
  | active hf ha hm => exact (hs.frames _ hf).active _ ha r (Stmt.mem_refs.2 hm)
  | field ho h => exact Heap.supports_object.1 (hs.heap.fields _ ho _ h)

lemma Sound.push (hs : s.Sound t) (hf : f.Sound s.heap) : (s.push f).Sound t where
  heap := hs.heap
  root := hs.root
  frames := by
    intro k hk
    rcases List.mem_cons.1 hk with rfl | hk
    · exact hf
    · exact hs.frames k hk

lemma Sound.withHeap (hs : s.Sound t) (hg : g.Sound t) (hk : s.heap.Keeps g) :
    Sound t { s with heap := g } where
  heap := hg
  root := fun r hr => hk r (hs.root r hr)
  frames := fun k hf => (hs.frames k hf).mono hk

lemma Sound.takeFrameId (hs : s.Sound t) : s.takeFrameId.2.Sound t :=
  ⟨hs.heap, hs.root, hs.frames⟩

/-! ### Collections -/

lemma mem_roots_owner (hf : f ∈ s.stack) : f.owner ∈ s.roots := by
  simp only [roots, List.mem_append, List.mem_flatMap]
  exact .inr ⟨f, hf, by simp [Frame.roots]⟩

lemma mem_roots_local {e : String × Value} (hf : f ∈ s.stack) (he : e ∈ f.locals)
    (hv : e.2 = .object r) : r ∈ s.roots := by
  simp only [roots, List.mem_append, List.mem_flatMap]
  exact .inr ⟨f, hf, by simp [Frame.roots, Fields.mem_refs.2 ⟨e, he, hv⟩]⟩

lemma mem_roots_active (hf : f ∈ s.stack) (ha : f.active = some a) (hr : r ∈ a.refs) :
    r ∈ s.roots := by
  simp only [roots, List.mem_append, List.mem_flatMap]
  exact .inr ⟨f, hf, by simp [Frame.roots, ha, hr]⟩

lemma mem_marked_of_root (hr : r ∈ s.roots) : r.serial ∈ s.marked :=
  mem_search_of_queue (List.mem_map_of_mem hr)

lemma mem_marked_of_field {o : Object} {e : String × Value} (hm : o.ref.serial ∈ s.marked)
    (ho : o ∈ s.heap.objects) (he : e ∈ o.fields) (hv : e.2 = .object r) :
    r.serial ∈ s.marked := by
  refine mem_search_of_edge hm (by simp) ?_
  simp only [Heap.edges, List.mem_flatMap, List.mem_map]
  exact ⟨o, ho, r, Fields.mem_refs.2 ⟨e, he, hv⟩, rfl⟩

lemma objects_foldl_erase (h : Heap) (gone : List ObjectRef) :
    (gone.foldl Heap.erase h).objects =
      h.objects.filter fun o => !(gone.map (·.serial)).contains o.ref.serial := by
  induction gone generalizing h with
  | nil => exact (List.filter_eq_self.2 (by simp)).symm
  | cons d gone ih =>
    rw [List.foldl_cons, ih, Heap.erase, List.filter_filter]
    refine List.filter_congr fun o _ => ?_
    by_cases hd : o.ref.serial = d.serial <;> simp [hd]

lemma next_foldl_erase (h : Heap) (gone : List ObjectRef) :
    (gone.foldl Heap.erase h).next = h.next := by
  induction gone generalizing h with
  | nil => rfl
  | cons d gone ih => rw [List.foldl_cons, ih, Heap.erase]

/-- A collection keeps exactly the marked objects. -/
lemma objects_collect (s : State) :
    s.collect.2.heap.objects = s.heap.objects.filter fun o => s.marked.contains o.ref.serial := by
  simp only [collect, objects_foldl_erase]
  refine List.filter_congr fun o ho => ?_
  by_cases hm : o.ref.serial ∈ s.marked
  · have : o.ref.serial ∉ s.garbage.map (·.serial) := by
      intro hg
      obtain ⟨d, hd, he⟩ := List.mem_map.1 hg
      have hn := (List.mem_filter.1 hd).2
      simp only [he, Bool.not_eq_true', List.contains_eq_mem, decide_eq_false_iff_not] at hn
      exact hn hm
    simp [hm, this]
  · have : o.ref.serial ∈ s.garbage.map (·.serial) := by
      refine List.mem_map.2 ⟨o.ref, List.mem_filter.2 ⟨List.mem_map_of_mem ho, ?_⟩, rfl⟩
      simp [hm]
    simp [hm, this]

lemma find?_collect (hm : n ∈ s.marked) : s.collect.2.heap.find? n = s.heap.find? n := by
  rw [Heap.find?, Heap.find?, objects_collect, List.find?_filter]
  congr 1
  funext o
  by_cases ho : o.ref.serial = n <;> simp [ho, hm]

lemma alive_collect (hm : r.serial ∈ s.marked) :
    s.collect.2.heap.Alive r ↔ s.heap.Alive r := by
  rw [Heap.Alive, Heap.Alive, find?_collect hm]

lemma keyed_collect (hk : s.heap.Keyed) : s.collect.2.heap.Keyed where
  nodup := by
    rw [objects_collect]
    exact hk.nodup.sublist (List.filter_sublist.map _)
  below := by
    intro o ho
    rw [objects_collect] at ho
    have hn : s.collect.2.heap.next = s.heap.next := next_foldl_erase _ _
    rw [hn]
    exact hk.below o (List.mem_filter.1 ho).1

/-- **A collection keeps a state sound.** -/
theorem Sound.collect (hs : s.Sound t) : s.collect.2.Sound t where
  heap :=
    { keyed := keyed_collect hs.heap.keyed
      fields := by
        intro o ho e he r hv
        rw [objects_collect] at ho
        obtain ⟨ho, hm⟩ := List.mem_filter.1 ho
        have hr := mem_marked_of_field (List.contains_iff_mem.1 hm) ho he hv
        exact (alive_collect hr).2 (hs.heap.fields o ho e he r hv)
      layout := by
        intro o ho
        rw [objects_collect] at ho
        exact hs.heap.layout o (List.mem_filter.1 ho).1 }
  root := by
    intro r (hr : s.root = some r)
    have hm : r ∈ s.roots := by simp [roots, hr]
    exact (alive_collect (mem_marked_of_root hm)).2 (hs.root r hr)
  frames := by
    intro f (hf : f ∈ s.stack)
    have hsf := hs.frames f hf
    refine ⟨?_, fun e he r hv => ?_, fun a ha r hr => ?_⟩
    · exact (alive_collect (mem_marked_of_root (mem_roots_owner hf))).2 hsf.owner
    · have hm := mem_marked_of_root (mem_roots_local hf he hv)
      exact (alive_collect hm).2 (hsf.locals e he r hv)
    · have hm := mem_marked_of_root (mem_roots_active hf ha hr)
      exact (alive_collect hm).2 (hsf.active a ha r hr)

end State

end Semlift.Store
