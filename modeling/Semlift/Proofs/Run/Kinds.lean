import Semlift.Proofs.Run.Reach
import Semlift.Proofs.Run.Residual

/-!
Kinds of statements that a program does not write. A run makes up sequences, assignments, `skip` and
`store` only, so a statement of another kind is never on the stack unless the program has one.
-/

namespace Semlift.Run

open Semlift.Lang Semlift.Program Semlift.Store

variable {p : Source} {q : Stmt → Bool} {a b : Stmt} {v : Value} {f : Frame} {s s' : State}
  {e : Effect} {m n : Machine} {t : ClassTable}

/-- No statement that a frame still executes has a part of the kind. -/
def StackWithout (q : Stmt → Bool) (fs : List Frame) : Prop :=
  ∀ f ∈ fs, ∀ a, f.active = some a → a.Without q

lemma stackWithout_cons {fs : List Frame} : StackWithout q (f :: fs) ↔
    (∀ a, f.active = some a → a.Without q) ∧ StackWithout q fs := by
  simp [StackWithout]

lemma Waits.without (hq : Stmt.Authored q) (hw : ∀ line target, q (.store line target) = false)
    (ha : Waits q a) : a.Without q := by
  induction ha with
  | store => simp [Stmt.Without, Stmt.parts, hw]
  | seq _ hrest ih => exact (Stmt.without_seq hq).2 ⟨ih, hrest⟩

lemma without_resume (hq : Stmt.Authored q) (ha : a.Without q) (hr : resume v a = some b) :
    b.Without q := by
  induction a generalizing b with
  | seq line first rest ih _ =>
    obtain ⟨hfirst, hrest⟩ := (Stmt.without_seq hq).1 ha
    obtain ⟨d, hd, rfl⟩ := Option.map_eq_some_iff.1 hr
    exact (Stmt.without_seq hq).2 ⟨ih hfirst hd, hrest⟩
  | store line target =>
    cases target with
    | none =>
      cases hr
      exact Stmt.without_skip hq
    | some target =>
      cases hr
      exact Stmt.without_assign hq
  | _ => simp [resume] at hr

lemma stackWithout_finish (hq : Stmt.Authored q) (hs : StackWithout q s.stack)
    (hf : finish f v s = .ok s') : StackWithout q s'.stack := by
  unfold finish at hf
  split at hf
  · rename_i caller below _ hstack
    rw [hstack, stackWithout_cons] at hs
    split at hf
    · cases hf
    · rename_i waiting hwaiting
      split at hf
      · cases hf
      · rename_i next hnext
        cases hf
        refine stackWithout_cons.2 ⟨?_, hs.2⟩
        rintro b ⟨⟩
        exact without_resume hq (hs.1 _ hwaiting) hnext
  · cases hf
    exact hs

lemma stackWithout_commit (hq : Stmt.Authored q)
    (hw : ∀ line target, q (.store line target) = false) (hs : StackWithout q e.state.stack)
    (ha : e.action.Without q) (hc : e.commit = .ok s') : StackWithout q s'.stack := by
  unfold Effect.commit at hc
  split at hc
  · exact stackWithout_finish hq hs hc
  · rename_i next _ hact
    rw [hact] at ha
    cases hc
    exact stackWithout_cons.2 ⟨ha, hs⟩
  · rename_i callee residual hact
    rw [hact] at ha
    cases hc
    refine stackWithout_cons.2 ⟨ha.1, stackWithout_cons.2 ⟨fun b hb => ?_, hs⟩⟩
    have hres := ha.2
    split at hres
    · obtain ⟨d, hd, hwaits⟩ := hres
      cases hd.symm.trans hb
      exact hwaits.without hq hw
    · exact hres b hb
  · exact stackWithout_finish hq hs hc

namespace Machine

/-- **A kind of statements that a program does not write** never gets on the stack. -/
theorem stackWithout_step (hq : Stmt.Authored q)
    (hw : ∀ line target, q (.store line target) = false) (ht : m.table.Proper p)
    (hp : p.Without q) (hm : StackWithout q m.state.stack) :
    StackWithout q m.step.2.state.stack := by
  have settled_stack {k : Machine} {s : State} {breakpoint : Bool}
      (hs : StackWithout q s.stack) : StackWithout q (k.settled s breakpoint).2.state.stack := by
    rcases settled_cases k s breakpoint with h | h <;>
      exact h ▸ hs
  have popped {f : Frame} {below : List Frame} (hstack : m.state.stack = f :: below) :
      (∀ a, f.active = some a → a.Without q) ∧ StackWithout q (m.popped below).stack := by
    rw [hstack] at hm
    exact stackWithout_cons.1 hm
  have hsteps := m.steps_step
  generalize m.step = r at hsteps ⊢
  cases hsteps with
  | ended => exact hm
  | finished hstack _ hfin =>
    exact settled_stack (stackWithout_finish hq (popped hstack).2 hfin)
  | unfinished hstack | failed hstack => exact (popped hstack).2
  | faulted hstack _ he =>
    obtain ⟨heap, rfl⟩ := left_of_fault he
    exact stackWithout_cons.2 (popped hstack)
  | uncommitted hstack _ he =>
    have hstack' := (confined_exec he).stack
    exact (congrArg (StackWithout q) hstack').mpr (popped hstack).2
  | committed hstack hactive he hcommit =>
    obtain ⟨ha, hbelow⟩ := popped hstack
    rw [← (confined_exec he).stack] at hbelow
    exact settled_stack (stackWithout_commit hq hw hbelow
      (without_exec (c := m.context) hq ht hp (ha _ hactive) he) hcommit)

lemma Reaches.sameSetup (hr : m.Reaches n) : m.SameSetup n := by
  induction hr with
  | refl => exact ⟨rfl, rfl, rfl⟩
  | @step n _ ih =>
    have h := n.sameSetup_step
    exact ⟨h.table.trans ih.table, h.view.trans ih.view, h.gcInterval.trans ih.gcInterval⟩
  | collect _ ih => exact ⟨ih.table, ih.view, ih.gcInterval⟩

/-- In a whole run it never gets there, if it was not there at first. -/
theorem Reaches.stackWithout (hr : m.Reaches n) (hq : Stmt.Authored q)
    (hw : ∀ line target, q (.store line target) = false) (ht : m.table.Proper p)
    (hp : p.Without q) (hm : StackWithout q m.state.stack) : StackWithout q n.state.stack := by
  induction hr with
  | refl => exact hm
  | step hr ih => exact stackWithout_step hq hw (hr.sameSetup.table.symm ▸ ht) hp ih
  | collect _ ih => exact ih

lemma stackWithout_load {k : Knowledge.Base} {w : Knowledge.View} {gcInterval : Nat}
    (ht : t.Proper p) (hp : p.Without q) :
    StackWithout q (load t k w gcInterval).state.stack :=
  stackWithout_cons.2 ⟨fun a ha => hp a (ht.mem_bodies_of_main ha),
    by simp [StackWithout, State.empty]⟩

end Machine

end Semlift.Run
