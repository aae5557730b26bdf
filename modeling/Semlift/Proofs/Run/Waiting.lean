import Semlift.Proofs.Run.Reach
import Semlift.Proofs.Run.Residual

/-!
The discipline of the stack. In a program that does not write `store` itself, a frame waits at the
head of its statement exactly while a frame that gives a value stands above it. Every step keeps
that, so a frame that ends finds its caller waiting, and no statement that waits is ever executed:
a step is never broken.
-/

namespace Semlift.Run

open Semlift.Lang Semlift.Program Semlift.Store

variable {p : Source} {t : ClassTable} {q : Stmt → Bool} {a : Stmt} {v : Value} {f : Frame}
  {s : State} {e : Effect} {below : List Frame} {gives : Bool} {m n : Machine}

/-- The frames below one that gives a value, or gives none. -/
inductive Disciplined : (gives : Bool) → List Frame → Prop where
  | bottom : Disciplined false []
  | running {f : Frame} {below : List Frame} :
      (∀ a, f.active = some a → a.Without Stmt.isStore) → Disciplined f.returnsValue below →
      Disciplined false (f :: below)
  | waiting {f : Frame} {a : Stmt} {below : List Frame} :
      f.active = some a → Waits Stmt.isStore a → Disciplined f.returnsValue below →
      Disciplined true (f :: below)

lemma Waits.head (ha : Waits q a) : a.head.isStore = true := by
  induction ha with
  | store => rfl
  | seq _ _ ih => exact ih

/-- What waits goes on, without waiting, once it is given a value. -/
lemma Waits.resume (hq : Stmt.Authored q) (ha : Waits q a) (v : Value) :
    ∃ b, resume v a = some b ∧ b.Without q := by
  induction ha with
  | @store line target =>
    cases target with
    | none => exact ⟨_, rfl, Stmt.without_skip hq⟩
    | some target => exact ⟨_, rfl, Stmt.without_assign hq⟩
  | seq _ hrest ih =>
    obtain ⟨b, hb, hwithout⟩ := ih
    exact ⟨_, by rw [Run.resume, hb]; rfl, (Stmt.without_seq hq).2 ⟨hwithout, hrest⟩⟩

/-- Below a frame that gives a value there is one that waits for it. -/
lemma Disciplined.caller {above : List Frame} (hd : Disciplined gives (above ++ f :: below))
    (hf : f.returnsValue = true) : ∃ caller rest a, below = caller :: rest ∧
      caller.active = some a ∧ a.head.isStore = true := by
  induction above generalizing gives with
  | nil =>
    have hbelow : Disciplined f.returnsValue below := by cases hd <;> assumption
    rw [hf] at hbelow
    cases hbelow with
    | waiting ha hw _ => exact ⟨_, _, _, rfl, ha, hw.head⟩
  | cons k above ih =>
    cases hd with
    | running _ hd | waiting _ _ hd => exact ih hd

/-- **A frame that ends** finds its caller waiting, if it gives a value. -/
lemma Disciplined.finish (hd : Disciplined f.returnsValue s.stack) (v : Value) :
    ∃ s', finish f v s = .ok s' ∧ Disciplined false s'.stack := by
  unfold Run.finish
  cases hf : f.returnsValue with
  | false =>
    rw [hf] at hd
    exact ⟨s, rfl, hd⟩
  | true =>
    rw [hf] at hd
    cases hstack : s.stack with
    | nil =>
      rw [hstack] at hd
      cases hd
    | cons caller rest =>
      rw [hstack] at hd
      cases hd with
      | waiting ha hw hrest =>
        obtain ⟨b, hb, hwithout⟩ := hw.resume Stmt.authored_isStore v
        refine ⟨{ s with stack := { caller with active := some b } :: rest }, ?_, ?_⟩
        · simp only [ha, hb]
        · refine .running ?_ hrest
          rintro c ⟨⟩
          exact hwithout

/-- The stack after a statement, in place of its frame. -/
lemma Disciplined.commit (hd : Disciplined f.returnsValue s.stack)
    (hc : Confined f s e.frame e.state) (ha : e.action.Without Stmt.isStore) :
    ∃ s', e.commit = .ok s' ∧ Disciplined false s'.stack := by
  obtain ⟨locals, hframe⟩ := hc.frame
  have hgives : e.frame.returnsValue = f.returnsValue := by rw [hframe]
  rw [← hgives, ← hc.stack] at hd
  unfold Effect.commit
  cases hact : e.action with
  | proceed residual breakpoint =>
    rw [hact] at ha
    cases residual with
    | none => exact hd.finish _
    | some next =>
      refine ⟨_, rfl, .running ?_ hd⟩
      rintro b ⟨⟩
      exact ha next rfl
  | spawn callee residual =>
    rw [hact] at ha
    refine ⟨_, rfl, .running ha.1 ?_⟩
    have hres := ha.2
    cases hcallee : callee.returnsValue with
    | true =>
      rw [if_pos hcallee] at hres
      obtain ⟨b, rfl, hb⟩ := hres
      exact .waiting rfl hb hd
    | false =>
      rw [if_neg (by simp [hcallee])] at hres
      exact .running hres hd
  | ret v => exact hd.finish v

namespace Machine

/-- A step comes back with an outcome or a diagnostic. -/
def Returns (m : Machine) : Prop := ∀ x, m.step.1 = .error x → ∃ d, x = .reported d

/-- The machines that a run leads to in which every step comes back, with collections anywhere. -/
inductive RunsTo (m : Machine) : Machine → Prop where
  | refl : RunsTo m m
  | step {n : Machine} : RunsTo m n → n.Returns → RunsTo m n.step.2
  | collect {n : Machine} : RunsTo m n → RunsTo m n.collect.2

structure Disciplined (t : ClassTable) (m : Machine) : Prop where
  table : m.table = t
  stack : Run.Disciplined false m.state.stack

lemma disciplined_settled {breakpoint : Bool} (hm : m.table = t)
    (hs : Run.Disciplined false s.stack) : (m.settled s breakpoint).2.Disciplined t := by
  rcases settled_cases m s breakpoint with h | h
  · exact h ▸ ⟨hm, hs⟩
  · exact h ▸ ⟨hm, hs⟩

/-- **A step keeps the discipline** and comes back, unless it asks with a number too large. -/
theorem Disciplined.step (hm : m.Disciplined t) (ht : t.Proper p)
    (hp : p.Without Stmt.isStore) :
    m.step.1 = .error .numberTooLarge ∨ m.Returns ∧ m.step.2.Disciplined t := by
  obtain ⟨rfl, hd⟩ := hm
  have running {f : Frame} {below : List Frame} (hstack : m.state.stack = f :: below) :
      (∀ a, f.active = some a → a.Without Stmt.isStore) ∧
        Run.Disciplined f.returnsValue (m.popped below).stack := by
    rw [hstack] at hd
    cases hd with
    | running ha hbelow => exact ⟨ha, hbelow⟩
  unfold Returns
  have hsteps := m.steps_step
  generalize m.step = r at hsteps ⊢
  cases hsteps with
  | ended hstack => exact .inr ⟨by simp, rfl, hd⟩
  | finished hstack _ hfin =>
    obtain ⟨s', hs', hd'⟩ := (running hstack).2.finish .null
    cases hfin.symm.trans hs'
    exact .inr ⟨by simp [settled], disciplined_settled rfl hd'⟩
  | unfinished hstack _ hfin =>
    obtain ⟨s', hs', -⟩ := (running hstack).2.finish .null
    cases hfin.symm.trans hs'
  | failed hstack hactive he =>
    rcases halt_of_exec he with ⟨_, _, h⟩ | ⟨-, hhead⟩ | h
    · cases h
    · rw [(running hstack).1 _ hactive _ Stmt.head_mem_parts] at hhead
      cases hhead
    · cases h
      exact .inl rfl
  | faulted hstack hactive he =>
    refine .inr ⟨by simp, rfl, ?_⟩
    obtain ⟨heap, rfl⟩ := left_of_fault he
    exact .running (running hstack).1 (running hstack).2
  | uncommitted hstack hactive he hcommit =>
    obtain ⟨ha, hbelow⟩ := running hstack
    obtain ⟨s', hs', -⟩ := hbelow.commit (confined_exec he)
      (without_exec (c := m.context) Stmt.authored_isStore ht hp (ha _ hactive) he)
    cases hcommit.symm.trans hs'
  | committed hstack hactive he hcommit =>
    obtain ⟨ha, hbelow⟩ := running hstack
    obtain ⟨s', hs', hd'⟩ := hbelow.commit (confined_exec he)
      (without_exec (c := m.context) Stmt.authored_isStore ht hp (ha _ hactive) he)
    cases hcommit.symm.trans hs'
    exact .inr ⟨by simp [settled], disciplined_settled rfl hd'⟩

theorem RunsTo.disciplined (hr : m.RunsTo n) (ht : t.Proper p) (hp : p.Without Stmt.isStore)
    (hm : m.Disciplined t) : n.Disciplined t := by
  induction hr with
  | refl => exact hm
  | step _ hret ih =>
    rcases ih.step ht hp with h | h
    · obtain ⟨d, hd⟩ := hret _ h
      cases hd
    · exact h.2
  | collect _ ih => exact ⟨ih.table, ih.stack⟩

lemma disciplined_load {k : Knowledge.Base} {w : Knowledge.View} {gcInterval : Nat}
    (ht : t.Proper p) (hp : p.Without Stmt.isStore) : (load t k w gcInterval).Disciplined t :=
  ⟨rfl, .running (fun a ha => hp a (ht.mem_bodies_of_main ha)) .bottom⟩

/-- **Every value that is given back is waited for.** In every run of an accepted program that does
not write `store`, no step is broken: the running frame does not wait, and below each frame that
gives a value there is a frame with a statement that waits at its head. -/
theorem values_awaited {k : Option Knowledge.Base} {hasOutput : Bool} {w : Knowledge.View}
    {gcInterval : Nat} (hb : p.build = .ok t) (hp : p.Without Stmt.isStore)
    (hs : start (some t) k hasOutput w gcInterval = .ok m) (hr : m.RunsTo n) :
    (∀ place detail, n.step.1 ≠ .error (.broken place detail)) ∧
      (∀ f below a, n.state.stack = f :: below → f.active = some a → a.head.isStore = false) ∧
      ∀ above f below, n.state.stack = above ++ f :: below → f.returnsValue = true →
        ∃ caller rest a, below = caller :: rest ∧ caller.active = some a ∧
          a.head.isStore = true := by
  have ht := proper_of_build hb
  obtain ⟨b, rfl⟩ := start_eq_ok hs
  have hn := hr.disciplined ht hp (disciplined_load ht hp)
  refine ⟨fun place detail hx => ?_, fun f below a hstack ha => ?_, fun above f below hstack => ?_⟩
  · rcases hn.step ht hp with h | ⟨h, -⟩
    · cases hx.symm.trans h
    · obtain ⟨d, hd⟩ := h _ hx
      cases hd
  · have hd := hn.stack
    rw [hstack] at hd
    cases hd with
    | running hwithout _ => exact hwithout a ha _ Stmt.head_mem_parts
  · exact (hstack ▸ hn.stack).caller

/-- Makes a counter, which begins one higher, and asks it for its number. -/
def counterProgram : Source :=
  ⟨[⟨"Counter", none, [⟨"n", "Int", ""⟩],
      [⟨"init", [], "Unit",
        some (.assign 1 (.own "n") (.binary .add (.own "n") (.lit (.int 1)))), false⟩,
       ⟨"number", [], "Int",
        some (.seq 2 (.seq 2 (.ret 2 (some (.own "n"))) (.skip 3)) (.skip 4)), false⟩],
      "", false⟩],
    some (.seq 5 (.create 5 (.var "c") "Counter" [.lit (.int 1)])
      (.seq 6 (.call 6 (some (.var "x")) (.var "c") "number" []) (.print 7 (.var "x"))))⟩

def counterTable : ClassTable :=
  ⟨[⟨"Counter", none, false, [⟨"n", "Int", "Counter"⟩],
      [⟨"init", [], "Unit",
        some (.assign 1 (.own "n") (.binary .add (.own "n") (.lit (.int 1)))), false, "Counter"⟩,
       ⟨"number", [], "Int",
        some (.seq 2 (.seq 2 (.ret 2 (some (.own "n"))) (.skip 3)) (.skip 4)), false,
        "Counter"⟩]⟩,
      listInfo, entryInfo], [], counterProgram.main⟩

def counterMachine : Machine :=
  load counterTable ⟨.empty, "", ⟨counterTable, ⟨"", "", "", ""⟩, [], []⟩, .empty, .empty, none,
    none, .empty⟩ .default 0

lemma returns_of_ok {o : Outcome} (h : m.step.1 = .ok o) : m.Returns := by
  intro x hx
  rw [h] at hx
  cases hx

/-- The constructor is over when the number is asked for; the main block waits for it. -/
theorem values_awaited_counter :
    counterProgram.build = .ok counterTable ∧ counterProgram.Without Stmt.isStore ∧
      ∃ n, counterMachine.RunsTo n ∧ n.state.stack.map (·.returnsValue) = [true, false] ∧
        (∀ place detail, n.step.1 ≠ .error (.broken place detail)) ∧
        (∀ f below a, n.state.stack = f :: below → f.active = some a → a.head.isStore = false) ∧
        ∀ above f below, n.state.stack = above ++ f :: below → f.returnsValue = true →
          ∃ caller rest a, below = caller :: rest ∧ caller.active = some a ∧
            a.head.isStore = true := by
  have hb : counterProgram.build = .ok counterTable := rfl
  have hp : counterProgram.Without Stmt.isStore := by decide
  have hs : start (some counterTable) (some counterMachine.base) true .default 0 =
      .ok counterMachine := rfl
  have h1 : counterMachine.Returns := returns_of_ok (o := ⟨true, false⟩) (by decide +kernel)
  have h2 : counterMachine.step.2.Returns :=
    returns_of_ok (o := ⟨true, false⟩) (by decide +kernel)
  have h3 : counterMachine.step.2.step.2.Returns :=
    returns_of_ok (o := ⟨true, false⟩) (by decide +kernel)
  have hr : counterMachine.RunsTo counterMachine.step.2.step.2.step.2 :=
    .step (.step (.step .refl h1) h2) h3
  exact ⟨hb, hp, _, hr, by decide +kernel, values_awaited hb hp hs hr⟩

end Machine

end Semlift.Run
