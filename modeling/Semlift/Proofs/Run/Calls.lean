import Semlift.Proofs.Run.Spine
import Semlift.Proofs.Run.Unchanged
import Semlift.Proofs.Run.Waiting

/-!
Calls and their callers. A step works on the running frame: the frames below it stay as they are,
except that a frame that ends gives its value to the one below it. So as long as a callee is on the
stack its caller waits, and no frame from the caller down changes; when the callee ends, the caller
gets its value in the place where it waits, and nothing else.
-/

namespace Semlift.Run

open Semlift.Lang Semlift.Program Semlift.Store

variable {f g k caller : Frame} {s s' : State} {a b : Stmt} {e : Effect} {v : Value}
  {below rest : List Frame} {line : Int} {target : Option Loc} {m n : Machine} {o : Outcome}

/-- The same frame at another time: what is left of it and its variables may differ. -/
structure SameFrame (f g : Frame) : Prop where
  owner : g.owner = f.owner
  id : g.id = f.id
  returnsValue : g.returnsValue = f.returnsValue

lemma SameFrame.refl : SameFrame f f := ⟨rfl, rfl, rfl⟩

lemma SameFrame.trans (h : SameFrame f g) (h' : SameFrame g k) : SameFrame f k :=
  ⟨h'.owner.trans h.owner, h'.id.trans h.id, h'.returnsValue.trans h.returnsValue⟩

lemma SameFrame.withActive (h : SameFrame f g) (r : Option Stmt) :
    SameFrame f { g with active := r } :=
  ⟨h.owner, h.id, h.returnsValue⟩

lemma Confined.sameFrame (h : Confined f s g s') : SameFrame f g := by
  obtain ⟨locals, rfl⟩ := h.frame
  exact ⟨rfl, rfl, rfl⟩

/-- What a frame that ends does to those below it: nothing, if it gives no value or there are none;
else the first of them waits and gets the value. -/
lemma finish_eq_ok : finish f v s = .ok s' ↔
    (f.returnsValue = false ∨ s.stack = []) ∧ s' = s ∨
    ∃ caller below a b, f.returnsValue = true ∧ s.stack = caller :: below ∧
      caller.active = some a ∧ resume v a = some b ∧
      s' = { s with stack := { caller with active := some b } :: below } := by
  unfold finish
  cases hf : f.returnsValue with
  | false => simp [eq_comm]
  | true =>
    cases hstack : s.stack with
    | nil => simp [eq_comm]
    | cons caller below =>
      cases ha : caller.active with
      | none => simp [ha]
      | some a => cases hb : resume v a <;> simp [ha, hb, eq_comm]

/-- A call at the head of a statement: a callee begins that gives a value, and the statement waits
behind it in the place of the call. -/
lemma exec_call {c : Context} {receiver : Expr} {method : String} {args : List Expr}
    (ha : a.head = .call line target receiver method args) (he : exec c f s a = .ok e) :
    e.frame = f ∧ ∃ callee,
      e.action = .spawn callee (some ((Stmt.store line target).andThen a.rests)) ∧
      callee.returnsValue = true := by
  obtain ⟨d, hd, rfl⟩ := exec_head_eq_ok he
  rw [ha, exec_eq_ok] at hd
  cases hd with
  | call => exact ⟨rfl, _, congrArg (Action.spawn _) followedByAll_some, rfl⟩

/-- A statement that ends its frame with a value is a `return`. -/
lemma ret_of_exec {c : Context} (he : exec c f s a = .ok e) (hv : e.action = .ret v) :
    (∃ line value, a.head = .ret line (some value) ∧ eval s.heap f value = .ok v) ∨
      (∃ line, a.head = .ret line none) ∧ v = .null := by
  rw [exec_eq_ok] at he
  induction he with
  | @seq _ _ _ d _ ih =>
    refine ih ?_
    cases hact : d.action <;> simp only [hact, Action.followedBy, reduceCtorEq] at hv
    exact hv
  | @ret line =>
    cases hv
    exact .inr ⟨⟨line, rfl⟩, rfl⟩
  | @retValue line value _ hvalue =>
    cases hv
    exact .inl ⟨line, value, rfl, hvalue⟩
  | _ => cases hv

namespace Machine

/-- The running frame ends with a value in the next step. -/
inductive Ends (m : Machine) : Value → Prop where
  /-- Nothing is left of it. -/
  | exhausted {f : Frame} {below : List Frame} :
      m.state.stack = f :: below → f.active = none → Ends m .null
  /-- It executes its last statement, which is no `return`. -/
  | falls {f : Frame} {below : List Frame} {a : Stmt} {e : Effect} {breakpoint : Bool} :
      m.state.stack = f :: below → f.active = some a →
      exec m.context f (m.popped below) a = .ok e → e.action = .proceed none breakpoint →
      Ends m .null
  | returns {f : Frame} {below : List Frame} {a : Stmt} {line : Int} :
      m.state.stack = f :: below → f.active = some a → a.head = .ret line none → Ends m .null
  | gives {f : Frame} {below : List Frame} {a : Stmt} {line : Int} {value : Expr} {v : Value} :
      m.state.stack = f :: below → f.active = some a → a.head = .ret line (some value) →
      eval m.state.heap f value = .ok v → Ends m v

/-- What a step that comes back does to the frames. -/
inductive Moves (m : Machine) (f : Frame) (below : List Frame) :
    Except Failure Outcome × Machine → Prop where
  | fails {d : Diagnostic} {n : Machine} :
      n.state.stack = f :: below → Moves m f below (.error (.reported d), n)
  | stays {o : Outcome} {n : Machine} {g : Frame} :
      SameFrame f g → n.state.stack = g :: below → Moves m f below (.ok o, n)
  | calls {o : Outcome} {n : Machine} {g callee : Frame} :
      SameFrame f g → n.state.stack = callee :: g :: below → Moves m f below (.ok o, n)
  | ends {o : Outcome} {n : Machine} {g : Frame} {v : Value} {s s' : State} :
      SameFrame f g → m.Ends v → s.stack = below → finish g v s = .ok s' →
      n.state.stack = s'.stack → Moves m f below (.ok o, n)

lemma stack_collectIfDue : m.collectIfDue.state.stack = m.state.stack := by
  unfold collectIfDue
  split <;> rfl

/-- **A step works on the running frame.** -/
theorem moves_step (hm : m.Returns) (hstack : m.state.stack = f :: below) :
    m.Moves f below m.step := by
  unfold Returns at hm
  have hsteps := m.steps_step
  generalize m.step = r at hm hsteps
  cases hsteps with
  | ended h => cases hstack.symm.trans h
  | finished h hactive hfin =>
    cases hstack.symm.trans h
    exact .ends .refl (.exhausted hstack hactive) rfl hfin stack_collectIfDue
  | unfinished _ _ hfin =>
    obtain ⟨place, detail, rfl⟩ := broken_of_finish hfin
    obtain ⟨d, hd⟩ := hm _ rfl
    cases hd
  | failed _ _ he =>
    obtain ⟨d, rfl⟩ := hm _ rfl
    exact absurd he exec_ne_reported
  | faulted h hactive he =>
    cases hstack.symm.trans h
    obtain ⟨heap, rfl⟩ := left_of_fault he
    exact .fails rfl
  | uncommitted _ _ _ hc =>
    obtain ⟨place, detail, rfl⟩ := broken_of_commit hc
    obtain ⟨d, hd⟩ := hm _ rfl
    cases hd
  | @committed f' below' a e s' h hactive he hc =>
    cases hstack.symm.trans h
    have hconf := confined_exec he
    have hsame := hconf.sameFrame
    unfold Effect.commit at hc
    cases hact : e.action with
    | proceed residual breakpoint =>
      rw [hact] at hc
      cases residual with
      | none =>
        exact .ends hsame (.falls hstack hactive he hact) hconf.stack hc stack_collectIfDue
      | some next =>
        cases hc
        exact .stays (hsame.withActive (some next))
          (stack_collectIfDue.trans (congrArg _ hconf.stack))
    | spawn callee residual =>
      rw [hact] at hc
      cases hc
      exact .calls (hsame.withActive residual)
        (stack_collectIfDue.trans (congrArg (callee :: _ :: ·) hconf.stack))
    | ret v =>
      rw [hact] at hc
      refine .ends hsame ?_ hconf.stack hc stack_collectIfDue
      rcases ret_of_exec he hact with ⟨_, _, hhead, hv⟩ | ⟨⟨_, hhead⟩, rfl⟩
      · exact .gives hstack hactive hhead hv
      · exact .returns hstack hactive hhead

/-! ### While a callee runs -/

variable {above : List Frame}

/-- **A step with a callee on the stack**: it stays there, and no frame below it changes; or it is
the running frame and ends with a value, which its caller gets. -/
lemma callee_cases (hm : m.Returns) (hstack : m.state.stack = above ++ g :: caller :: below)
    (hg : g.returnsValue = true) :
    (∃ above' g', SameFrame g g' ∧ m.step.2.state.stack = above' ++ g' :: caller :: below) ∨
      above = [] ∧ ∃ v o a b, m.Ends v ∧ m.step.1 = .ok o ∧ caller.active = some a ∧
        resume v a = some b ∧
        m.step.2.state.stack = { caller with active := some b } :: below := by
  cases above with
  | nil =>
    have hmoves := moves_step hm hstack
    generalize m.step = r at hmoves ⊢
    cases hmoves with
    | fails hr => exact .inl ⟨[], g, .refl, hr⟩
    | stays hsame hr => exact .inl ⟨[], _, hsame, hr⟩
    | calls hsame hr => exact .inl ⟨[_], _, hsame, hr⟩
    | ends hsame hends hs hfin hr =>
      have hgives := hsame.returnsValue.trans hg
      rcases finish_eq_ok.1 hfin with ⟨h | h, -⟩ | ⟨k, rest, a, b, -, hk, ha, hb, rfl⟩
      · cases hgives.symm.trans h
      · cases hs.symm.trans h
      · cases hs.symm.trans hk
        exact .inr ⟨rfl, _, _, a, b, hends, rfl, ha, hb, hr⟩
  | cons x above =>
    -- the running frame stands above the callee
    refine .inl ?_
    have hmoves := moves_step hm hstack
    generalize m.step = r at hmoves ⊢
    cases hmoves with
    | fails hr => exact ⟨x :: above, g, .refl, hr⟩
    | @stays _ _ x' _ hr => exact ⟨x' :: above, g, .refl, hr⟩
    | @calls _ _ x' callee _ hr => exact ⟨callee :: x' :: above, g, .refl, hr⟩
    | ends _ _ hs hfin hr =>
      rcases finish_eq_ok.1 hfin with ⟨-, rfl⟩ | ⟨k, rest, a, b, -, hk, -, -, rfl⟩
      · exact ⟨above, g, .refl, hr.trans hs⟩
      · have hrest := hs.symm.trans hk
        cases above with
        | nil =>
          cases hrest
          exact ⟨[], _, SameFrame.refl.withActive (some b), hr⟩
        | cons y above =>
          obtain ⟨rfl, rfl⟩ := List.cons.inj hrest
          exact ⟨{ y with active := some b } :: above, g, .refl, hr⟩

/-- The machines that a run leads to in which every step comes back and in which more than so many
frames are on the stack all the time. -/
inductive RunsAbove (height : Nat) (m : Machine) : Machine → Prop where
  | refl : height < m.state.stack.length → RunsAbove height m m
  | step {n : Machine} : RunsAbove height m n → n.Returns →
      height < n.step.2.state.stack.length → RunsAbove height m n.step.2
  | collect {n : Machine} : RunsAbove height m n → RunsAbove height m n.collect.2

/-- **A callee stays on the stack**, and no frame below it changes, as long as the stack is higher
than the frames below it. -/
theorem RunsAbove.callee (hr : m.RunsAbove (below.length + 1) n)
    (hstack : m.state.stack = above ++ g :: caller :: below) (hg : g.returnsValue = true) :
    ∃ above' g', SameFrame g g' ∧ n.state.stack = above' ++ g' :: caller :: below := by
  induction hr with
  | refl => exact ⟨above, g, .refl, hstack⟩
  | step _ hret hheight ih =>
    obtain ⟨above', g', hsame, hbefore⟩ := ih
    rcases callee_cases hret hbefore (hsame.returnsValue.trans hg) with
      ⟨above'', g'', hsame', hafter⟩ | ⟨-, v, o, a, b, -, -, -, -, hafter⟩
    · exact ⟨above'', g'', hsame.trans hsame', hafter⟩
    · rw [hafter, List.length_cons] at hheight
      exact absurd hheight (Nat.lt_irrefl _)
  | collect _ ih => exact ih

/-- **Calls do not touch their callers.** A step that makes a call puts a callee on the stack, below
which the caller waits in the place of the call. As long as the callee is there, whatever calls,
constructors, collections and failing steps come, the caller and the frames below it are as they
were. The step that takes it away is one in which it ends with a value: null, or what it returns. Of
all that is below, that step changes only the place where the caller waits: there the value is
assigned to the target on the line of the call, or nothing is done without a target. -/
theorem caller_untouched {receiver : Expr} {method : String} {args : List Expr}
    (hstack : m.state.stack = f :: below) (hactive : f.active = some a)
    (hcall : a.head = .call line target receiver method args) (hok : m.step.1 = .ok o) :
    ∃ callee, callee.returnsValue = true ∧
      m.step.2.state.stack = callee ::
        { f with active := some ((Stmt.store line target).andThen a.rests) } :: below ∧
      ∀ n, m.step.2.RunsAbove (below.length + 1) n → ∃ above callee', SameFrame callee callee' ∧
        n.state.stack = above ++ callee' ::
          { f with active := some ((Stmt.store line target).andThen a.rests) } :: below ∧
        (n.Returns → n.step.2.state.stack.length ≤ below.length + 1 →
          above = [] ∧ ∃ v o, n.Ends v ∧ n.step.1 = .ok o ∧
            n.step.2.state.stack =
              { f with active := some ((given line v target).andThen a.rests) } :: below) := by
  obtain ⟨callee, hgives, hpushed⟩ : ∃ callee : Frame, callee.returnsValue = true ∧
      m.step.2.state.stack = callee ::
        { f with active := some ((Stmt.store line target).andThen a.rests) } :: below := by
    have hsteps := m.steps_step
    generalize m.step = r at hok hsteps ⊢
    cases hsteps with
    | ended h => cases hstack.symm.trans h
    | finished h hnone =>
      cases hstack.symm.trans h
      cases hactive.symm.trans hnone
    | unfinished | failed | faulted | uncommitted => cases hok
    | @committed f' below' a' e s' h hsome he hc =>
      cases hstack.symm.trans h
      cases hactive.symm.trans hsome
      obtain ⟨hframe, callee, hact, hgives⟩ := exec_call hcall he
      rw [Effect.commit, hact] at hc
      cases hc
      refine ⟨callee, hgives, stack_collectIfDue.trans ?_⟩
      rw [hframe, State.push, State.push, (confined_exec he).stack]
      rfl
  refine ⟨callee, hgives, hpushed, fun n hn => ?_⟩
  have hpushed' : m.step.2.state.stack = [] ++ callee ::
      { f with active := some ((Stmt.store line target).andThen a.rests) } :: below := hpushed
  obtain ⟨above, callee', hsame, hstays⟩ := hn.callee hpushed' hgives
  refine ⟨above, callee', hsame, hstays, fun hret hheight => ?_⟩
  rcases callee_cases hret hstays (hsame.returnsValue.trans hgives) with
    ⟨above', callee'', -, hafter⟩ | ⟨habove, v, o, w, next, hends, hout, hw, hnext, hafter⟩
  · rw [hafter] at hheight
    simp only [List.length_append, List.length_cons] at hheight
    omega
  · cases hw
    rw [resume_andThen] at hnext
    cases hnext
    exact ⟨habove, v, o, hends, hout, hafter⟩

/-! ### A call with calls inside -/

/-- Asks a counter for twice its next number; on the way the counter makes another one and asks
itself. -/
def twiceProgram : Source :=
  ⟨[⟨"Counter", none, [⟨"n", "Int", ""⟩],
      [⟨"init", [], "Unit",
        some (.assign 1 (.own "n") (.binary .add (.own "n") (.lit (.int 1)))), false⟩,
       ⟨"next", [], "Int", some (.ret 2 (some (.binary .add (.own "n") (.lit (.int 1))))), false⟩,
       ⟨"twice", [], "Int",
        some (.seq 3 (.create 3 (.var "d") "Counter" [.lit (.int 5)])
          (.seq 4 (.call 4 (some (.var "a")) .this "next" [])
            (.ret 5 (some (.binary .mul (.lit (.int 2)) (.var "a")))))), false⟩],
      "", false⟩],
    some (.seq 6 (.create 6 (.var "c") "Counter" [.lit (.int 1)])
      (.seq 7 (.call 7 (some (.var "x")) (.var "c") "twice" []) (.print 8 (.var "x"))))⟩

def twiceTable : ClassTable :=
  ⟨[⟨"Counter", none, false, [⟨"n", "Int", "Counter"⟩],
      (twiceProgram.classes.flatMap (·.methods)).map fun d =>
        ⟨d.name, d.params, d.returnType, d.body, d.abstract, "Counter"⟩⟩,
      listInfo, entryInfo], [], twiceProgram.main⟩

/-- The machine that runs the program and collects after each step. -/
def twiceMachine : Machine :=
  load twiceTable ⟨.empty, "", ⟨twiceTable, ⟨"", "", "", ""⟩, [], []⟩, .empty, .empty, none, none,
    .empty⟩ .default 1

/-- The main block before the call. -/
def twiceCaller : Frame :=
  ⟨some (.seq 7 (.call 7 (some (.var "x")) (.var "c") "twice" []) (.print 8 (.var "x"))),
    [("c", .object ⟨1, "Counter"⟩)], ⟨0, entryClass⟩, 0, false⟩

/-- While the counter works, the stack grows and shrinks above the main block, which then gets the
number in the place of the call. -/
theorem caller_untouched_twice :
    twiceProgram.build = .ok twiceTable ∧
      ∃ m n, twiceMachine.RunsTo m ∧ m.state.stack = [twiceCaller] ∧
        m.step.2.RunsAbove 1 n ∧ n.Returns ∧ n.Ends (.int 6) ∧
        n.step.2.state.stack = [{ twiceCaller with
          active := some (.seq (-1) (.assign 7 (.var "x") (.lit (.int 6)))
            (.print 8 (.var "x"))) }] := by
  have hb : twiceProgram.build = .ok twiceTable := rfl
  have h0 : twiceMachine.Returns := returns_of_ok (o := ⟨true, false⟩) (by decide +kernel)
  have h1 : twiceMachine.step.2.Returns := returns_of_ok (o := ⟨true, false⟩) (by decide +kernel)
  -- the third step makes the call, the ninth answers it
  obtain ⟨m, hm⟩ : ∃ m, m = twiceMachine.step.2.step.2 := ⟨_, rfl⟩
  have hruns : twiceMachine.RunsTo m := hm ▸ .step (.step .refl h0) h1
  have hstack : m.state.stack = [twiceCaller] := by rw [hm]; decide +kernel
  have hok : m.step.1 = .ok ⟨true, false⟩ := by rw [hm]; decide +kernel
  have next {k : Machine} (hk : m.step.2.RunsAbove 1 k) (hstep : k.step.1 = .ok ⟨true, false⟩)
      (hheight : 1 < k.step.2.state.stack.length) : m.step.2.RunsAbove 1 k.step.2 :=
    .step hk (returns_of_ok hstep) hheight
  have hstart : m.step.2.RunsAbove 1 m.step.2 := .refl (by rw [hm]; decide +kernel)
  have habove : m.step.2.RunsAbove 1 m.step.2.step.2.step.2.step.2.step.2.step.2 := by
    refine next (next (next (next (next hstart ?_ ?_) ?_ ?_) ?_ ?_) ?_ ?_) ?_ ?_ <;>
      (rw [hm]; decide +kernel)
  obtain ⟨n, hn⟩ : ∃ n, n = m.step.2.step.2.step.2.step.2.step.2.step.2 := ⟨_, rfl⟩
  rw [← hn] at habove
  obtain ⟨callee, -, -, hrun⟩ := caller_untouched hstack rfl rfl hok
  obtain ⟨above, callee', -, -, hpops⟩ := hrun n habove
  have hreturns : n.Returns := returns_of_ok (o := ⟨true, false⟩) (by rw [hn, hm]; decide +kernel)
  obtain ⟨-, v, o, hends, -, hafter⟩ := hpops hreturns (by rw [hn, hm]; decide +kernel)
  have hactive : n.step.2.state.stack.map (·.active) =
      [some (.seq (-1) (.assign 7 (.var "x") (.lit (.int 6))) (.print 8 (.var "x")))] := by
    rw [hn, hm]
    decide +kernel
  obtain rfl : v = .int 6 := by
    rw [hafter] at hactive
    simpa [given, Stmt.rests, Stmt.andThen] using hactive
  exact ⟨hb, m, n, hruns, hstack, habove, hreturns, hends, hafter⟩

end Machine

end Semlift.Run
