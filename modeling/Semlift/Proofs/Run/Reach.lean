import Semlift.Proofs.Run.Exec
import Semlift.Run.Machine

/-!
Machines that run an accepted program. The machine it starts with is sound, and a step keeps it
sound, whether it succeeds or fails, as a collection does. So no reference dangles in any machine
that is reached, and every object has the fields of its class.
-/

namespace Semlift.Run

open Semlift.Lang Semlift.Program Semlift.Store

variable {p : Source} {t : ClassTable} {h : Heap} {f : Frame} {s s' : State} {a b : Stmt}
  {e : Effect} {v : Value} {m n : Machine}

/-! ### Frames that end -/

/-- A statement that waits is given a live value. -/
lemma backs_resume (ha : h.Backs a) (hv : h.Supports v) (hr : resume v a = some b) :
    h.Backs b := by
  induction a generalizing b with
  | seq line first rest ih _ =>
    obtain ⟨hfirst, hrest⟩ := backs_seq.1 ha
    obtain ⟨d, hd, rfl⟩ := Option.map_eq_some_iff.1 hr
    exact backs_seq.2 ⟨ih hfirst hd, hrest⟩
  | store line target =>
    cases target with
    | none =>
      cases hr
      simp [Heap.Backs, Stmt.refs]
    | some target =>
      cases hr
      exact backs_assign_lit.2 ⟨ha, hv⟩
  | _ => simp [resume] at hr

lemma sound_finish (hs : s.Sound t) (hv : s.heap.Supports v) (hf : finish f v s = .ok s') :
    s'.Sound t := by
  unfold finish at hf
  split at hf
  · rename_i caller below _ hstack
    have hcaller := hs.frames caller (by simp [hstack])
    split at hf
    · simp at hf
    · rename_i waiting hw
      split at hf
      · simp at hf
      · rename_i next hn
        cases hf
        refine ⟨hs.heap, hs.root, fun k hk => ?_⟩
        rcases List.mem_cons.1 hk with rfl | hk
        · refine ⟨hcaller.owner, hcaller.locals, ?_⟩
          rintro a ⟨⟩
          exact backs_resume (hcaller.active waiting hw) hv hn
        · exact hs.frames k (by simp [hstack, hk])
  · cases hf
    exact hs

lemma sound_commit {before : Heap} (he : e.Sound t before) (hc : e.commit = .ok s) :
    s.Sound t := by
  unfold Effect.commit at hc
  have ha := he.action
  split at hc
  · exact sound_finish he.state Heap.supports_null hc
  · rename_i hact
    rw [hact] at ha
    cases hc
    exact he.state.push (he.frame.withActive ha)
  · rename_i hact
    rw [hact] at ha
    cases hc
    exact (he.state.push (he.frame.withActive ha.2)).push ha.1
  · rename_i hact
    rw [hact] at ha
    exact sound_finish he.state ha hc

/-! ### Steps -/

namespace Machine

structure Sound (t : ClassTable) (m : Machine) : Prop where
  table : m.table = t
  state : m.state.Sound t

lemma Sound.collect (hm : m.Sound t) : m.collect.2.Sound t := ⟨hm.table, hm.state.collect⟩

lemma sound_settled {breakpoint : Bool} (ht : m.table = t) (hs : s.Sound t) :
    (m.settled s breakpoint).2.Sound t := by
  have hm : Sound t { m with state := s } := ⟨ht, hs⟩
  unfold settled collectIfDue
  dsimp only
  split
  · exact hm.collect
  · exact hm

lemma sound_stepActive (ht : t.Proper p) (hp : p.ObjectFree) (hm : m.table = t) (hs : s.Sound t)
    (hf : f.Sound s.heap) (ha : s.heap.Backs a) : (m.stepActive f s a).2.Sound t := by
  subst hm
  unfold stepActive
  dsimp only
  split
  · exact ⟨rfl, hs⟩
  · rename_i fault left he
    rw [left_of_exec_fault (c := m.context) ht hs hf ha he]
    exact ⟨rfl, hs.push hf⟩
  · rename_i e he
    have hsound := sound_exec (c := m.context) ht hp hs hf ha he
    split
    · exact ⟨rfl, hsound.state⟩
    · rename_i s' hc
      exact sound_settled rfl (sound_commit hsound hc)

/-- **A step keeps a machine sound**, also a step that fails. -/
theorem Sound.step (hm : m.Sound t) (ht : t.Proper p) (hp : p.ObjectFree) :
    m.step.2.Sound t := by
  unfold Machine.step
  split
  · exact hm
  · rename_i f below hstack
    have hf : f.Sound m.state.heap := hm.state.frames f (by simp [hstack])
    have hs : State.Sound t { m.state with stack := below } :=
      ⟨hm.state.heap, hm.state.root, fun k hk => hm.state.frames k (by simp [hstack, hk])⟩
    dsimp only
    split
    · unfold stepFinished
      split
      · exact ⟨hm.table, hs⟩
      · rename_i s' hfin
        exact sound_settled hm.table (sound_finish hs Heap.supports_null hfin)
    · rename_i a ha
      exact sound_stepActive ht hp hm.table hs hf (hf.active a ha)

/-! ### Runs -/

/-- The machines that steps and collections lead to, in any number and any order. -/
inductive Reaches (m : Machine) : Machine → Prop where
  | refl : Reaches m m
  | step {n : Machine} : Reaches m n → Reaches m n.step.2
  | collect {n : Machine} : Reaches m n → Reaches m n.collect.2

/-- **Every machine that is reached is sound.** -/
theorem Reaches.sound (hr : m.Reaches n) (ht : t.Proper p) (hp : p.ObjectFree) (hm : m.Sound t) :
    n.Sound t := by
  induction hr with
  | refl => exact hm
  | step _ ih => exact ih.step ht hp
  | collect _ ih => exact ih.collect

lemma sound_load {k : Knowledge.Base} {w : Knowledge.View} {gcInterval : Nat} (ht : t.Proper p)
    (hp : p.ObjectFree) : (load t k w gcInterval).Sound t := by
  have hempty : Heap.empty.Sound t := ⟨⟨.nil, by simp [Heap.empty]⟩, by simp [Heap.empty],
    by simp [Heap.empty]⟩
  have hheap : (Heap.empty.allocate entryClass []).2.Sound t :=
    hempty.allocate (by simp) (by simp [ht.entry])
  have halive : Heap.Alive _ (Heap.empty.allocate entryClass []).1 :=
    hempty.keyed.alive_allocated
  have hs : State.Sound t { State.empty with
      heap := (Heap.empty.allocate entryClass []).2
      root := some (Heap.empty.allocate entryClass []).1 } := by
    refine ⟨hheap, ?_, by simp [State.empty]⟩
    rintro r ⟨⟩
    exact halive
  refine ⟨rfl, hs.takeFrameId.push ⟨halive, by simp, fun a ha r hr => ?_⟩⟩
  exact absurd (Stmt.mem_refs.1 hr) (hp a (ht.mem_bodies_of_main ha) r)

lemma start_eq_ok {k : Option Knowledge.Base} {hasOutput : Bool} {w : Knowledge.View}
    {gcInterval : Nat} (hs : start (some t) k hasOutput w gcInterval = .ok m) :
    ∃ b, m = load t b w gcInterval := by
  unfold start at hs
  dsimp only at hs
  split at hs
  · simp at hs
  · split at hs
    · simp at hs
    · rename_i b
      split at hs
      · exact ⟨b, by cases hs; rfl⟩
      · simp at hs

/-- **Nothing dangles.** In every machine that an accepted program reaches, whatever is held is
alive, and the fields of each object are those of its class in their order. -/
theorem nothing_dangles {k : Option Knowledge.Base} {hasOutput : Bool} {w : Knowledge.View}
    {gcInterval : Nat} (hb : p.build = .ok t) (hp : p.ObjectFree)
    (hs : start (some t) k hasOutput w gcInterval = .ok m) (hr : m.Reaches n) :
    (∀ r, n.state.Holds r → n.state.heap.Alive r) ∧
      ∀ o ∈ n.state.heap.objects,
        o.fields.map Prod.fst = (t.fields o.ref.className).map (·.name) := by
  have ht := proper_of_build hb
  obtain ⟨b, rfl⟩ := start_eq_ok hs
  have hn := hr.sound ht hp (sound_load ht hp)
  exact ⟨fun r => hn.state.alive, hn.state.heap.layout⟩

/-- Makes two objects, one after the other, for one variable. -/
def linkProgram : Source :=
  ⟨[⟨"Link", none, [⟨"next", "Link", ""⟩], [], "", false⟩],
    some (.seq 1 (.create 1 (.var "a") "Link" [.lit .null])
      (.seq 2 (.create 2 (.var "a") "Link" [.lit .null]) (.print 3 (.var "a"))))⟩

def linkTable : ClassTable :=
  ⟨[⟨"Link", none, false, [⟨"next", "Link", "Link"⟩], []⟩, listInfo, entryInfo], [],
    linkProgram.main⟩

/-- The machine that runs the program, without any knowledge besides. -/
def linkMachine : Machine :=
  load linkTable ⟨.empty, "", ⟨linkTable, ⟨"", "", "", ""⟩, [], []⟩, .empty, .empty, none, none,
    .empty⟩ .default 0

/-- After the second step the first object is held no more, and the collection takes it. -/
theorem nothing_dangles_linkProgram :
    linkProgram.build = .ok linkTable ∧ linkProgram.ObjectFree ∧
      ∃ n, linkMachine.Reaches n ∧ n.state.heap.objects.map (·.ref.serial) = [0, 2] ∧
        (∀ r, n.state.Holds r → n.state.heap.Alive r) ∧
        ∀ o ∈ n.state.heap.objects,
          o.fields.map Prod.fst = (linkTable.fields o.ref.className).map (·.name) := by
  have hb : linkProgram.build = .ok linkTable := rfl
  have hp : linkProgram.ObjectFree := by
    intro b hb r hm
    simp only [Source.bodies, linkProgram, Option.mem_toList, List.flatMap_cons,
      List.filterMap_nil, List.flatMap_nil, List.append_nil, Option.some.injEq] at hb
    subst hb
    simpa [Stmt.refs, Loc.refs, Expr.refs, Value.object?] using Stmt.mem_refs.2 hm
  have hs : start (some linkTable) (some linkMachine.base) true .default 0 = .ok linkMachine := rfl
  have hr : linkMachine.Reaches linkMachine.step.2.step.2.collect.2 :=
    .collect (.step (.step .refl))
  refine ⟨hb, hp, _, hr, ?_, nothing_dangles hb hp hs hr⟩
  decide +kernel

end Machine

end Semlift.Run
