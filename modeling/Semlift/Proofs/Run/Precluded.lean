import Semlift.Proofs.Run.Kinds
import Semlift.Proofs.Run.Messages
import Semlift.Proofs.Run.Unchanged

/-!
What the checks before a run are good for. In every machine that an accepted program reaches, all
objects are of concrete classes and no statement on the stack makes one of another class. So no step
fails because a class is unknown or abstract, a method has no body, or a reference dangles.
-/

namespace Semlift.Store

open Semlift.Program

variable {t : ClassTable} {h : Heap} {r : ObjectRef} {v : Value} {name className : String}
  {fs : Fields}

/-- All objects are of classes that objects may be made of. -/
def Heap.Concrete (t : ClassTable) (h : Heap) : Prop := ∀ o ∈ h.objects, t.Concrete o.ref.className

namespace Heap.Concrete

lemma of_alive (hc : h.Concrete t) (hr : h.Alive r) : t.Concrete r.className := by
  obtain ⟨o, ho, rfl⟩ := Option.map_eq_some_iff.1 hr
  exact hc o (List.mem_of_find?_eq_some ho)

lemma allocate (hc : h.Concrete t) (hn : t.Concrete className) :
    (h.allocate className fs).2.Concrete t := by
  intro o ho
  simp only [Heap.allocate, List.mem_append, List.mem_singleton] at ho
  rcases ho with ho | rfl
  · exact hc o ho
  · exact hn

lemma write (hc : h.Concrete t) : (h.write r name v).Concrete t := by
  intro o ho
  obtain ⟨d, hd, he⟩ := exists_ref_of_mem_write ho
  exact he ▸ hc d hd

lemma collect {s : State} (hc : s.heap.Concrete t) : s.collect.2.heap.Concrete t := by
  intro o ho
  rw [State.objects_collect] at ho
  exact hc o (List.mem_filter.1 ho).1

end Heap.Concrete

end Semlift.Store

namespace Semlift.Run

open Semlift.Lang Semlift.Program Semlift.Store

variable {p : Source} {t : ClassTable} {c : Context} {h : Heap} {f f' : Frame} {s s' : State}
  {a : Stmt} {e : Effect} {v : Value} {x : Failure} {d : Diagnostic} {m n : Machine}

/-! ### Objects of concrete classes -/

lemma concrete_of_prepare {target : Loc} {className : String} {args : List Expr} {slot : Slot}
    {fields : Fields} (hp : prepare c f s target className args = .ok (slot, fields)) :
    c.table.Concrete className := by
  obtain ⟨⟨⟩, hcheck, -⟩ := bind_eq_ok.1 hp
  unfold checkCreation at hcheck
  dsimp only at hcheck
  split at hcheck
  · cases hcheck
  · rename_i hhas
    split at hcheck
    · cases hcheck
    · rename_i habstract
      exact ⟨by simpa using hhas, by simpa using habstract⟩

lemma concrete_write {slot : Slot} (hs : s.heap.Concrete t)
    (hw : slot.write v f s = .ok (f', s')) : s'.heap.Concrete t := by
  rcases write_eq_ok hw with ⟨_, -, rfl, rfl⟩ | ⟨_, _, -, rfl, rfl⟩
  · exact hs
  · exact hs.write

lemma concrete_lowerTerms {prefixes : Rdf.Prefixes} {xs : List (Option Rdf.Term)} {g : Heap}
    (hl : t.Concrete listClass) (hh : h.Concrete t)
    (hx : Lower.lowerTerms prefixes h xs = .ok (v, g)) : g.Concrete t := by
  obtain ⟨vs, -, he⟩ := map_eq_ok.1 hx
  have key : (Lower.buildList h vs).2.Concrete t :=
    List.foldlRecOn (motive := fun acc : Value × Heap => acc.2.Concrete t) vs Lower.prepend hh
      fun _ hacc _ _ => hacc.allocate hl
  rwa [he] at key

/-- Whatever a statement makes is of a concrete class. -/
theorem concrete_exec (hl : c.table.Concrete listClass) (hs : s.heap.Concrete c.table)
    (he : exec c f s a = .ok e) : e.state.heap.Concrete c.table := by
  rw [exec_eq_ok] at he
  induction he with
  | assign _ _ hw => exact concrete_write hs hw
  | seq _ ih => exact ih
  | create hprep hw _ | construct hprep hw _ =>
    have hwritten := concrete_write (hs.allocate (concrete_of_prepare hprep)) hw
    exact hwritten
  | member _ _ hlist | access _ _ hlist => exact concrete_lowerTerms hl hs hlist
  | _ => exact hs

lemma heap_of_finish (hf : finish f v s = .ok s') : s'.heap = s.heap := by
  unfold finish at hf
  split at hf
  · split at hf
    · cases hf
    · split at hf <;> cases hf
      rfl
  · cases hf
    rfl

lemma heap_of_commit (hc : e.commit = .ok s) : s.heap = e.state.heap := by
  unfold Effect.commit at hc
  split at hc
  · exact heap_of_finish hc
  · cases hc
    rfl
  · cases hc
    rfl
  · exact heap_of_finish hc

namespace Machine

/-- What every machine keeps that runs an accepted program. -/
structure Vetted (t : ClassTable) (m : Machine) : Prop where
  sound : m.Sound t
  heap : m.state.heap.Concrete t
  stack : StackWithout (createsOther t) m.state.stack

lemma concrete_settled {breakpoint : Bool} (hs : s.heap.Concrete t) :
    (m.settled s breakpoint).2.state.heap.Concrete t := by
  rcases settled_cases m s breakpoint with h | h
  · exact h ▸ hs
  · exact h ▸ hs.collect

lemma Vetted.concrete_step (hm : m.Vetted t) (ht : t.Proper p) (hk : t.Checked p) :
    m.step.2.state.heap.Concrete t := by
  obtain ⟨⟨rfl, hsound⟩, hheap, -⟩ := hm
  have hpopped (below : List Frame) : (m.popped below).heap.Concrete m.table := hheap
  have hsteps := m.steps_step
  generalize m.step = r at hsteps ⊢
  cases hsteps with
  | ended | unfinished | failed => exact hheap
  | finished _ _ hfin =>
    refine concrete_settled ?_
    rw [heap_of_finish hfin]
    exact hheap
  | faulted hst hactive he =>
    -- a fault leaves the heap from before
    obtain ⟨hf, hs⟩ := sound_popped hsound hst
    rw [left_of_exec_fault (c := m.context) ht hs hf (hf.active _ hactive) he]
    exact hheap
  | uncommitted _ _ he => exact concrete_exec (c := m.context) hk.list (hpopped _) he
  | committed _ _ he hcommit =>
    refine concrete_settled ?_
    rw [heap_of_commit hcommit]
    exact concrete_exec (c := m.context) hk.list (hpopped _) he

lemma Vetted.step (hm : m.Vetted t) (ht : t.Proper p) (hk : t.Checked p) (hp : p.ObjectFree) :
    m.step.2.Vetted t where
  sound := hm.sound.step ht hp
  heap := hm.concrete_step ht hk
  stack := stackWithout_step authored_createsOther (fun _ _ => rfl) (hm.sound.table.symm ▸ ht)
    hk.without_createsOther hm.stack

/-- **Every machine that is reached** keeps what the checks promised. -/
theorem Reaches.vetted (hr : m.Reaches n) (ht : t.Proper p) (hk : t.Checked p)
    (hp : p.ObjectFree) (hm : m.Vetted t) : n.Vetted t := by
  induction hr with
  | refl => exact hm
  | step _ ih => exact ih.step ht hk hp
  | collect _ ih => exact ⟨ih.sound.collect, ih.heap.collect, ih.stack⟩

lemma vetted_load {k : Knowledge.Base} {w : Knowledge.View} {gcInterval : Nat} (ht : t.Proper p)
    (hk : t.Checked p) (hp : p.ObjectFree) : (load t k w gcInterval).Vetted t where
  sound := sound_load ht hp
  heap := Heap.Concrete.allocate (by simp [Heap.Concrete, Heap.empty]) hk.entry
  stack := stackWithout_load ht hk.without_createsOther

/-- The diagnostic of a fault has the message of the fault, also with a place. -/
lemma message_diagnostic {q : Fault} {span : Span} :
    (q.diagnostic.atStatement span).message = q.message := by
  have hplace (d : Diagnostic) : (d.atStatement span).message = d.message := by
    unfold Diagnostic.atStatement
    dsimp only
    split <;> rfl
  rw [hplace]
  cases q <;> rfl

/-- A step of a machine that keeps the promises fails otherwise than the checks preclude. -/
lemma Vetted.foreign (hm : m.Vetted t) (hk : t.Checked p)
    (hx : m.step.1 = .error (.reported d)) : Foreign d.message := by
  obtain ⟨⟨rfl, hsound⟩, hheap, hstack⟩ := hm
  obtain ⟨f, below, a, fault, left, hst, hactive, he, rfl, -⟩ := fault_of_reported hx
  obtain ⟨hf, hs⟩ := sound_popped hsound hst
  rw [message_diagnostic]
  rw [hst, stackWithout_cons] at hstack
  have hconcrete (r : ObjectRef) (hr : (m.popped below).heap.Alive r) :
      m.table.Concrete r.className := hheap.of_alive hr
  exact foreign_of_exec (c := m.context) hk hconcrete hs hf (hf.active a hactive)
    (hstack.1 a hactive) he

/-- **The checks before a run hold what they promise.** Whatever step of an accepted program fails,
it does not say that a reference dangles, that a class is unknown, that an object of an abstract
class is to be made, or that a method is abstract. -/
theorem no_precluded_fault {k : Option Knowledge.Base} {hasOutput : Bool} {w : Knowledge.View}
    {gcInterval : Nat} (hb : p.build = .ok t) (hp : p.ObjectFree)
    (hs : start (some t) k hasOutput w gcInterval = .ok m) (hr : m.Reaches n)
    (hx : n.step.1 = .error (.reported d)) {q : Fault} (hq : q.Precluded) :
    d.message ≠ q.message := by
  have ht := proper_of_build hb
  have hk := checked_of_build hb
  obtain ⟨b, rfl⟩ := start_eq_ok hs
  exact (hr.vetted ht hk hp (vetted_load ht hk hp)).foreign hk hx q hq

/-- Asks a square for its area, which the abstract class above it leaves open, and then for
something that no class has. -/
def shapeProgram : Source :=
  ⟨[⟨"Square", some "Shape", [⟨"side", "Int", ""⟩],
      [⟨"area", [], "Int", some (.ret 1 (some (.binary .mul (.own "side") (.own "side")))), false⟩],
      "", false⟩,
     ⟨"Shape", none, [], [⟨"area", [], "Int", none, true⟩], "", true⟩],
    some (.seq 2 (.create 2 (.var "s") "Square" [.lit (.int 3)])
      (.seq 3 (.call 3 (some (.var "x")) (.var "s") "area" [])
        (.call 4 none (.var "s") "paint" [])))⟩

def shapeTable : ClassTable :=
  ⟨[⟨"Square", some "Shape", false, [⟨"side", "Int", "Square"⟩],
      [⟨"area", [], "Int", some (.ret 1 (some (.binary .mul (.own "side") (.own "side")))), false,
        "Square"⟩]⟩,
     ⟨"Shape", none, true, [], [⟨"area", [], "Int", none, true, "Shape"⟩]⟩, listInfo, entryInfo],
    [], shapeProgram.main⟩

def shapeMachine : Machine :=
  load shapeTable ⟨.empty, "", ⟨shapeTable, ⟨"", "", "", ""⟩, [], []⟩, .empty, .empty, none, none,
    .empty⟩ .default 1

/-- The square is asked for its own area; the step that fails finds no method. -/
theorem no_precluded_fault_shape :
    shapeProgram.build = .ok shapeTable ∧ shapeProgram.ObjectFree ∧
      ∃ n d, shapeMachine.Reaches n ∧ n.printed = "" ∧ n.step.1 = .error (.reported d) ∧
        d.message = "class Square has no method paint" ∧
        (Fault.abstractMethod "Shape" "area").Precluded ∧
        d.message ≠ (Fault.abstractMethod "Shape" "area").message := by
  have hb : shapeProgram.build = .ok shapeTable := rfl
  have hp : shapeProgram.ObjectFree := by decide
  have hs : start (some shapeTable) (some shapeMachine.base) true .default 1 =
      .ok shapeMachine := rfl
  have hr : shapeMachine.Reaches shapeMachine.step.2.step.2.step.2.step.2 :=
    .step (.step (.step (.step .refl)))
  have hx : shapeMachine.step.2.step.2.step.2.step.2.step.1 = .error (.reported
      ((Fault.noMethod "Square" "paint").diagnostic.atStatement ⟨4, "s.paint()"⟩)) := by
    decide +kernel
  have hq : (Fault.abstractMethod "Shape" "area").Precluded := .abstractMethod _ _
  exact ⟨hb, hp, _, _, hr, by decide +kernel, hx, rfl, hq,
    no_precluded_fault hb hp hs hr hx hq⟩

end Machine

end Semlift.Run
