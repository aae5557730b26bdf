import Semlift.Proofs.Store.Sound

/-!
Objects that a state leads to, from its root and its frames through the fields of objects. In a
sound state they are alive, and two states with the same root and frames lead to the same objects if
they agree about the fields of those alive in both.

A heap that lacks some objects of another one, but gives out the same serial numbers, lies within it
and agrees with it about everything that is alive in it. Making an object and writing a field in
both keeps that, and so does a collection in the smaller one.
-/

namespace Semlift.Store

open Semlift.Lang Semlift.Program

namespace State

variable {t : ClassTable} {s s' : State} {r : ObjectRef}

/-- What the root and the frames of a state hold, and the fields of what it leads to. -/
inductive Reachable (s : State) : ObjectRef → Prop where
  | root {r : ObjectRef} : s.root = some r → Reachable s r
  | owner {f : Frame} : f ∈ s.stack → Reachable s f.owner
  | variable {f : Frame} {name : String} {r : ObjectRef} :
      f ∈ s.stack → (name, .object r) ∈ f.locals → Reachable s r
  | active {f : Frame} {a : Stmt} {r : ObjectRef} :
      f ∈ s.stack → f.active = some a → a.Mentions r → Reachable s r
  | field {r x : ObjectRef} {fs : Fields} {name : String} :
      Reachable s r → s.heap.fields? r = some fs → (name, .object x) ∈ fs → Reachable s x

/-- **What a sound state leads to is alive.** -/
theorem Sound.alive_of_reachable (hs : s.Sound t) (hr : s.Reachable r) : s.heap.Alive r := by
  cases hr with
  | root h => exact hs.alive (.root h)
  | owner h => exact hs.alive (.owner h rfl)
  | «variable» hf h => exact hs.alive (.variable hf h)
  | active hf ha h => exact hs.alive (.active hf ha h)
  | field _ hfs h =>
    obtain ⟨o, ho, rfl⟩ := Option.map_eq_some_iff.1 hfs
    exact hs.alive (.field (List.mem_of_find?_eq_some ho) h)

lemma Reachable.transfer (hr : s.Reachable r) (hs : s.Sound t) (hs' : s'.Sound t)
    (hstack : s.stack = s'.stack) (hroot : s.root = s'.root)
    (hfields : ∀ r, s.heap.Alive r → s'.heap.Alive r → s.heap.fields? r = s'.heap.fields? r) :
    s'.Reachable r := by
  induction hr with
  | root h => exact .root (hroot ▸ h)
  | owner h => exact .owner (hstack ▸ h)
  | «variable» hf h => exact .variable (hstack ▸ hf) h
  | active hf ha h => exact .active (hstack ▸ hf) ha h
  | field hr hfs h ih =>
    rw [hfields _ (hs.alive_of_reachable hr) (hs'.alive_of_reachable ih)] at hfs
    exact .field ih hfs h

end State

end Semlift.Store

namespace Semlift.Store

variable {h g : Heap} {r : ObjectRef} {name : String} {v : Value} {f : Frame}
  {s s₀ : State}

namespace Heap

/-- All objects of the heap are objects of the other one, which may have more. -/
structure Within (h g : Heap) : Prop where
  keyed : g.Keyed
  next : h.next = g.next
  objects : h.objects ⊆ g.objects

lemma Within.refl (hk : h.Keyed) : h.Within h := ⟨hk, rfl, fun _ ho => ho⟩

lemma Within.find? {o : Object} (hw : h.Within g) (ho : h.find? r.serial = some o) :
    g.find? r.serial = some o := by
  obtain ⟨hmem, hser⟩ := Heap.mem_of_find? ho
  rw [← hser]
  exact hw.keyed.find?_eq (hw.objects hmem)

lemma Within.fields? (hw : h.Within g) (hr : h.Alive r) : h.fields? r = g.fields? r := by
  obtain ⟨o, ho, -⟩ := Option.map_eq_some_iff.1 hr
  rw [Heap.fields?, Heap.fields?, ho, hw.find? ho]

lemma Within.allocate (hw : h.Within g) (c : String) (fs : Fields) :
    (h.allocate c fs).2.Within (g.allocate c fs).2 where
  keyed := hw.keyed.allocate
  next := by simp [Heap.allocate, hw.next]
  objects := by
    simp only [Heap.allocate, hw.next]
    exact List.append_subset.2 ⟨fun o ho => List.mem_append_left _ (hw.objects ho),
      List.subset_append_right _ _⟩

lemma Within.write (hw : h.Within g) : (h.write r name v).Within (g.write r name v) where
  keyed := hw.keyed.write
  next := hw.next
  objects := List.map_subset _ hw.objects

end Heap

namespace State

/-- The states differ in nothing but objects that the other one has besides. -/
structure Within (s s₀ : State) : Prop where
  stack : s.stack = s₀.stack
  root : s.root = s₀.root
  nextFrame : s.nextFrame = s₀.nextFrame
  heap : s.heap.Within s₀.heap

lemma Within.push (hw : s.Within s₀) : (s.push f).Within (s₀.push f) :=
  ⟨by simp [State.push, hw.stack], hw.root, hw.nextFrame, hw.heap⟩

lemma Within.withStack {stack : List Frame} (hw : s.Within s₀) :
    Within { s with stack := stack } { s₀ with stack := stack } :=
  ⟨rfl, hw.root, hw.nextFrame, hw.heap⟩

lemma Within.withHeap (hw : s.Within s₀) (hg : h.Within g) :
    Within { s with heap := h } { s₀ with heap := g } :=
  ⟨hw.stack, hw.root, hw.nextFrame, hg⟩

lemma Within.takeFrameId (hw : s.Within s₀) : s.takeFrameId.2.Within s₀.takeFrameId.2 :=
  ⟨hw.stack, hw.root, by simp [State.takeFrameId, hw.nextFrame], hw.heap⟩

lemma Within.collect (hw : s.Within s₀) : s.collect.2.Within s₀ where
  stack := hw.stack
  root := hw.root
  nextFrame := hw.nextFrame
  heap :=
    { keyed := hw.heap.keyed
      next := (next_foldl_erase _ _).trans hw.heap.next
      objects := by
        rw [objects_collect]
        exact fun o ho => hw.heap.objects (List.mem_filter.1 ho).1 }

end State

end Semlift.Store
