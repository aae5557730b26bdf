import Semlift.Proofs.Run.Reach
import Semlift.Proofs.Run.Residual

/-!
Steps that fail. A fault is met before the statement has done anything: a `new` may allocate before
its target is written, but in a sound state that write succeeds. So a step that ends with a
diagnostic leaves the machine as it was, apart from what is known.
-/

namespace Semlift.Run

open Semlift.Lang Semlift.Program Semlift.Store

variable {p : Source} {t : ClassTable} {f : Frame} {s : State} {e : Effect} {v : Value}
  {x : Failure} {d : Diagnostic} {m n : Machine}

lemma broken_of_finish (h : finish f v s = .error x) :
    ∃ place detail, x = .broken place detail := by
  unfold finish at h
  split at h
  · split at h
    · cases h
      exact ⟨_, _, rfl⟩
    · split at h
      · cases h
        exact ⟨_, _, rfl⟩
      · cases h
  · cases h

lemma broken_of_commit (h : e.commit = .error x) : ∃ place detail, x = .broken place detail := by
  unfold Effect.commit at h
  split at h
  · exact broken_of_finish h
  · cases h
  · cases h
  · exact broken_of_finish h

namespace Machine

/-- **A step ends with a diagnostic** because the statement that it executes meets a fault. -/
lemma fault_of_reported (hx : m.step.1 = .error (.reported d)) :
    ∃ f below a fault left, m.state.stack = f :: below ∧ f.active = some a ∧
      exec m.context f (m.popped below) a = .error (.fault fault left) ∧
      d = fault.diagnostic.atStatement a.headSpan ∧
      m.step.2 =
        { m with
          base := knowledgeAfter m.context f (m.popped below) a
          state := left.push f } := by
  have hsteps := m.steps_step
  generalize m.step = r at hx hsteps ⊢
  cases hsteps with
  | ended | finished | committed => cases hx
  | unfinished _ _ h =>
    obtain ⟨place, detail, rfl⟩ := broken_of_finish h
    cases hx
  | failed _ _ h =>
    cases hx
    exact absurd h exec_ne_reported
  | faulted hstack hactive h =>
    cases hx
    exact ⟨_, _, _, _, _, hstack, hactive, h, rfl, rfl⟩
  | uncommitted _ _ _ h =>
    obtain ⟨place, detail, rfl⟩ := broken_of_commit h
    cases hx

/-- A step that ends with a diagnostic changes nothing but what is known. -/
lemma step_of_reported (ht : t.Proper p) (hm : m.Sound t) (hx : m.step.1 = .error (.reported d)) :
    ∃ base, m.step.2 = { m with base := base } := by
  obtain ⟨rfl, hstate⟩ := hm
  obtain ⟨f, below, a, fault, left, hstack, hactive, h, -, hstep⟩ := fault_of_reported hx
  obtain ⟨hf, hs⟩ := sound_popped hstate hstack
  have hleft := left_of_exec_fault (c := m.context) ht hs hf (hf.active a hactive) h
  refine ⟨knowledgeAfter m.context f (m.popped below) a, ?_⟩
  rw [hstep, hleft, popped, State.push, ← hstack]

/-- **A failed step changes nothing**: the stack, the heap with the next serial number, the counter
of frames, the simulation, the root, the number of steps and what was printed are those from
before. -/
theorem unchanged_of_reported {k : Option Knowledge.Base} {hasOutput : Bool}
    {w : Knowledge.View} {gcInterval : Nat} (hb : p.build = .ok t) (hp : p.ObjectFree)
    (hs : start (some t) k hasOutput w gcInterval = .ok m) (hr : m.Reaches n)
    (hx : n.step.1 = .error (.reported d)) :
    n.step.2.state = n.state ∧ n.step.2.steps = n.steps ∧ n.step.2.printed = n.printed := by
  have ht := proper_of_build hb
  obtain ⟨b, rfl⟩ := start_eq_ok hs
  obtain ⟨base, he⟩ := step_of_reported ht (hr.sound ht hp (sound_load ht hp)) hx
  rw [he]
  exact ⟨rfl, rfl, rfl⟩

/-- Makes an object, and another one for its field from a field that null does not have. -/
def strayProgram : Source :=
  ⟨[⟨"Link", none, [⟨"next", "Link", ""⟩], [], "", false⟩],
    some (.seq 1 (.create 1 (.var "a") "Link" [.lit .null])
      (.create 2 (.field (.var "a") "next") "Link"
        [.field (.field (.var "a") "next") "next"]))⟩

def strayTable : ClassTable :=
  ⟨[⟨"Link", none, false, [⟨"next", "Link", "Link"⟩], []⟩, listInfo, entryInfo], [],
    strayProgram.main⟩

/-- The machine that runs the program and collects after every step. -/
def strayMachine : Machine :=
  load strayTable ⟨.empty, "", ⟨strayTable, ⟨"", "", "", ""⟩, [], []⟩, .empty, .empty, none, none,
    .empty⟩ .default 1

/-- The second `new` fails and leaves both objects and their numbers alone. -/
theorem unchanged_of_reported_stray :
    strayProgram.build = .ok strayTable ∧ strayProgram.ObjectFree ∧
      ∃ n, strayMachine.Reaches n ∧
        n.step.1 = .error (.reported ((Fault.nullRead "next").diagnostic.atStatement
          ⟨2, "a.next := new Link(a.next.next)"⟩)) ∧
        n.state.heap.objects.map (·.ref.serial) = [0, 1] ∧
        n.step.2.state = n.state ∧ n.step.2.steps = n.steps ∧ n.step.2.printed = n.printed := by
  have hb : strayProgram.build = .ok strayTable := rfl
  have hp : strayProgram.ObjectFree := by decide
  have hs : start (some strayTable) (some strayMachine.base) true .default 1 =
      .ok strayMachine := rfl
  have hr : strayMachine.Reaches strayMachine.step.2 := .step .refl
  have hx : strayMachine.step.2.step.1 = .error (.reported
      ((Fault.nullRead "next").diagnostic.atStatement ⟨2, "a.next := new Link(a.next.next)"⟩)) := by
    decide +kernel
  exact ⟨hb, hp, _, hr, hx, by decide +kernel, unchanged_of_reported hb hp hs hr hx⟩

end Machine

end Semlift.Run
