import Semlift.Proofs.Run.Kinds
import Semlift.Proofs.Run.Reach
import Semlift.Proofs.Run.Within
import Semlift.Proofs.Store.Reachable

/-!
Collections that nobody notices. A machine that collects is compared with one that never does: its
heap is within the other heap, and what the program names is in both, so each step does the same in
both, unless it asks what is known. Two machines that collect differently are both like the one that
never does, hence like each other.
-/

namespace Semlift.Run.Machine

open Semlift.Lang Semlift.Program Semlift.Store

variable {p : Source} {t : ClassTable} {a : Stmt} {f : Frame} {s s₀ : State}
  {m m₀ m₁ m₂ : Machine} {breakpoint : Bool}

/-- The machines differ in nothing but how they collect and in what is collected. -/
structure Within (m m₀ : Machine) : Prop where
  context : m.context = m₀.context
  steps : m.steps = m₀.steps
  printed : m.printed = m₀.printed
  state : m.state.Within m₀.state

/-- The steps end alike, in machines that differ as little as before. -/
def SameStep (x y : Except Failure Outcome × Machine) : Prop := x.1 = y.1 ∧ x.2.Within y.2

/-! ### Steps -/

lemma settled_within (hw : m.Within m₀) (h₀ : m₀.gcInterval = 0) (hs : s.Within s₀) :
    SameStep (m.settled s breakpoint) (m₀.settled s₀ breakpoint) := by
  have hzero : collectIfDue { m₀ with state := s₀ } = { m₀ with state := s₀ } := by
    simp [collectIfDue, h₀]
  unfold settled
  rw [hzero]
  dsimp only
  unfold collectIfDue
  split
  · have hc := hs.collect
    exact ⟨by simp only [isDone, collect, hc.stack], hw.context, hw.steps, hw.printed, hc⟩
  · exact ⟨by simp only [isDone, hs.stack], hw.context, hw.steps, hw.printed, hs⟩

lemma stepFinished_within (hw : m.Within m₀) (h₀ : m₀.gcInterval = 0) (hs : s.Within s₀) :
    SameStep (m.stepFinished f s) (m₀.stepFinished f s₀) := by
  have hfinish := finish_within (f := f) (v := .null) hs
  unfold stepFinished
  generalize finish f .null s = x at hfinish ⊢
  generalize finish f .null s₀ = y at hfinish ⊢
  cases hfinish with
  | ok h => exact settled_within ⟨hw.context, by simp [hw.steps], hw.printed, hw.state⟩ h₀ h
  | error h => exact ⟨by rw [h], hw.context, hw.steps, hw.printed, hs⟩

lemma stepActive_within (ht : m.table.Proper p) (hs : s.Sound m.table) (hf : f.Sound s.heap)
    (ha : s.heap.Backs a) (hq : a.Without Stmt.asks) (hw : m.Within m₀) (h₀ : m₀.gcInterval = 0)
    (hss : s.Within s₀) : SameStep (m.stepActive f s a) (m₀.stepActive f s₀ a) := by
  have hexec := exec_within (c := m.context) ht hs hf ha hq hss
  unfold stepActive
  rw [← hw.context, knowledgeAfter_of_without hq, knowledgeAfter_of_without hq]
  -- what is known stays the same, so the contexts agree after the step too
  have hcontext : ∀ steps printed s steps₀ printed₀ s₀,
      context { m with base := m.context.base, steps := steps, printed := printed, state := s } =
        context { m₀ with
          base := m.context.base, steps := steps₀, printed := printed₀, state := s₀ } := by
    have h := hw.context
    simp only [context, Context.mk.injEq] at h
    simp [context, h]
  dsimp only
  generalize exec m.context f s a = x at hexec ⊢
  generalize exec m.context f s₀ a = y at hexec ⊢
  cases hexec with
  | error h =>
    cases h with
    | fault hleft => exact ⟨rfl, hcontext .., hw.steps, hw.printed, hleft.push⟩
    | failure => exact ⟨rfl, hcontext .., hw.steps, hw.printed, hss⟩
  | @ok e e₀ he =>
    have hcommit := commit_within he
    dsimp only
    rw [← he.breakpoint]
    generalize e.commit = z at hcommit ⊢
    generalize e₀.commit = z₀ at hcommit ⊢
    cases hcommit with
    | error h =>
      exact ⟨by rw [h], hcontext .., by simp [hw.steps], by simp [hw.printed, he.printed],
        he.state⟩
    | ok h =>
      exact settled_within
        ⟨hcontext .., by simp [hw.steps], by simp [hw.printed, he.printed], hw.state⟩ h₀ h

/-- **A step is the same** with collections and without. -/
theorem Within.step (hw : m.Within m₀) (h₀ : m₀.gcInterval = 0) (hm : m.Sound t)
    (ht : t.Proper p) (hq : StackWithout Stmt.asks m.state.stack) :
    SameStep m.step m₀.step := by
  obtain ⟨rfl, hstate⟩ := hm
  unfold Machine.step
  rw [← hw.state.stack]
  cases hstack : m.state.stack with
  | nil => exact ⟨rfl, hw⟩
  | cons f below =>
    obtain ⟨hf, hs⟩ := sound_popped hstate hstack
    have hpopped : (m.popped below).Within (m₀.popped below) := hw.state.withStack
    dsimp only
    cases hactive : f.active with
    | none => exact stepFinished_within hw h₀ hpopped
    | some a =>
      rw [hstack] at hq
      exact stepActive_within ht hs hf (hf.active a hactive) ((stackWithout_cons.1 hq).1 a hactive)
        hw h₀ hpopped

/-! ### Runs -/

/-- The machine after so many steps. -/
def after (m : Machine) : Nat → Machine
  | 0 => m
  | n + 1 => (m.after n).step.2

lemma reaches_after {n : Nat} : m.Reaches (m.after n) := by
  induction n with
  | zero => exact .refl
  | succ n ih => exact .step ih

variable {b : Knowledge.Base} {w : Knowledge.View} {i j n : Nat}

lemma sound_after (ht : t.Proper p) (hp : p.ObjectFree) : ((load t b w i).after n).Sound t :=
  reaches_after.sound ht hp (sound_load ht hp)

lemma within_load (ht : t.Proper p) (hp : p.ObjectFree) :
    (load t b w i).Within (load t b w 0) where
  context := rfl
  steps := rfl
  printed := rfl
  state :=
    have hm := sound_load (k := b) (w := w) ht hp
    ⟨rfl, rfl, rfl, .refl hm.state.heap.keyed⟩

/-- After any number of steps the next one does the same with collections and without. -/
lemma sameStep_of_within (ht : t.Proper p) (hp : p.ObjectFree) (hq : p.Without Stmt.asks)
    (hw : ((load t b w i).after n).Within ((load t b w 0).after n)) :
    SameStep ((load t b w i).after n).step ((load t b w 0).after n).step :=
  hw.step reaches_after.sameSetup.gcInterval (sound_after ht hp) ht
    (reaches_after.stackWithout Stmt.authored_asks (fun _ _ => rfl) ht hq (stackWithout_load ht hq))

/-- **A machine that collects stays within the one that never does.** -/
theorem within_after (ht : t.Proper p) (hp : p.ObjectFree) (hq : p.Without Stmt.asks) :
    ((load t b w i).after n).Within ((load t b w 0).after n) := by
  induction n with
  | zero => exact within_load ht hp
  | succ n ih => exact (sameStep_of_within ht hp hq ih).2

/-- Nothing tells the machines apart but objects that no name leads to: the next step ends alike,
the same was printed, and the stacks and the objects that they lead to are the same. -/
structure Indistinct (m₁ m₂ : Machine) : Prop where
  outcome : m₁.step.1 = m₂.step.1
  printed : m₁.printed = m₂.printed
  stack : m₁.state.stack = m₂.state.stack
  next : m₁.state.heap.next = m₂.state.heap.next
  reachable : ∀ r, m₁.state.Reachable r ↔ m₂.state.Reachable r
  fields : ∀ r, m₁.state.Reachable r →
    ∃ fs, m₁.state.heap.fields? r = some fs ∧ m₂.state.heap.fields? r = some fs

/-- Two machines within a third one differ in what none of them leads to. -/
lemma indistinct_of_within (h₁ : m₁.Within m₀) (h₂ : m₂.Within m₀) (hs₁ : m₁.state.Sound t)
    (hs₂ : m₂.state.Sound t) (hx : m₁.step.1 = m₂.step.1) : Indistinct m₁ m₂ := by
  have hstack := h₁.state.stack.trans h₂.state.stack.symm
  have hroot := h₁.state.root.trans h₂.state.root.symm
  have hfields : ∀ r, m₁.state.heap.Alive r → m₂.state.heap.Alive r →
      m₁.state.heap.fields? r = m₂.state.heap.fields? r := fun r hr₁ hr₂ =>
    (h₁.state.heap.fields? hr₁).trans (h₂.state.heap.fields? hr₂).symm
  have hreach {r : ObjectRef} (hr : m₁.state.Reachable r) : m₂.state.Reachable r :=
    hr.transfer hs₁ hs₂ hstack hroot hfields
  exact
    { outcome := hx
      printed := h₁.printed.trans h₂.printed.symm
      stack := hstack
      next := h₁.state.heap.next.trans h₂.state.heap.next.symm
      reachable := fun r => ⟨hreach, fun hr =>
        hr.transfer hs₂ hs₁ hstack.symm hroot.symm fun r hr₂ hr₁ => (hfields r hr₁ hr₂).symm⟩
      fields := fun r hr => by
        have halive := hs₁.alive_of_reachable hr
        obtain ⟨fs, hfs⟩ := Option.isSome_iff_exists.1 halive.fields?_isSome
        have hsame := hfields r halive (hs₂.alive_of_reachable (hreach hr))
        exact ⟨fs, hfs, hsame ▸ hfs⟩ }

/-- Of a machine that starts, the interval says no more than when it collects. -/
lemma start_interval {k : Option Knowledge.Base} {table : Option ClassTable} {hasOutput : Bool} :
    start table k hasOutput w j =
      (start table k hasOutput w i).map fun m => { m with gcInterval := j } := by
  unfold start
  split
  · rfl
  · split
    · rfl
    · split
      · rfl
      · split <;> rfl

/-- **Collections go unnoticed.** However often two machines collect while they run an accepted
program that does not ask what is known, after the same number of steps they are indistinct. -/
theorem collection_unnoticed {k : Option Knowledge.Base} {hasOutput : Bool} (hb : p.build = .ok t)
    (hp : p.ObjectFree) (hq : p.Without Stmt.asks) (h₁ : start (some t) k hasOutput w i = .ok m₁)
    (h₂ : start (some t) k hasOutput w j = .ok m₂) : Indistinct (m₁.after n) (m₂.after n) := by
  have ht := proper_of_build hb
  obtain ⟨b, rfl⟩ := start_eq_ok h₁
  rw [start_interval (i := i), h₁] at h₂
  obtain rfl : load t b w j = m₂ := Except.ok.inj h₂
  have hw₁ := within_after (b := b) (w := w) (i := i) (n := n) ht hp hq
  have hw₂ := within_after (b := b) (w := w) (i := j) (n := n) ht hp hq
  have hx : ((load t b w i).after n).step.1 = ((load t b w j).after n).step.1 :=
    (sameStep_of_within ht hp hq hw₁).1.trans (sameStep_of_within ht hp hq hw₂).1.symm
  exact indistinct_of_within hw₁ hw₂ (sound_after ht hp).state (sound_after ht hp).state hx

/-- With a collection after each step, the first of two objects is gone after the second step. -/
theorem collection_unnoticed_link :
    linkProgram.build = .ok linkTable ∧ linkProgram.ObjectFree ∧ linkProgram.Without Stmt.asks ∧
      ∃ m, start (some linkTable) (some linkMachine.base) true .default 1 = .ok m ∧
        start (some linkTable) (some linkMachine.base) true .default 0 = .ok linkMachine ∧
        (m.after 2).state.heap.objects.map (·.ref.serial) = [0, 2] ∧
        (linkMachine.after 2).state.heap.objects.map (·.ref.serial) = [0, 1, 2] ∧
        Indistinct (m.after 2) (linkMachine.after 2) := by
  have hb : linkProgram.build = .ok linkTable := rfl
  have hp : linkProgram.ObjectFree := by decide
  have hq : linkProgram.Without Stmt.asks := by decide
  have h₁ : start (some linkTable) (some linkMachine.base) true .default 1 =
      .ok { linkMachine with gcInterval := 1 } := rfl
  have h₂ : start (some linkTable) (some linkMachine.base) true .default 0 = .ok linkMachine := rfl
  refine ⟨hb, hp, hq, _, h₁, h₂, ?_, ?_, collection_unnoticed hb hp hq h₁ h₂⟩
  · decide +kernel
  · decide +kernel

end Semlift.Run.Machine
