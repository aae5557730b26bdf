import Semlift.Proofs.Run.Exec
import Semlift.Run.Machine

/-!
What one statement and one step do, as rules: for each form of statement its premises and its
effect, for each way a step ends the machine after it. A statement succeeds exactly with the effect
that a rule gives it, so what every effect and every step keep is proved rule by rule.
-/

namespace Semlift.Run

open Semlift.Lang Semlift.Program Semlift.Store

/-- The rules of execution, for a frame that was taken from the stack of a state. -/
inductive Executes (c : Context) (f : Frame) (s : State) : Stmt → Effect → Prop where
  | skip {line : Int} : Executes c f s (.skip line) (done f s none)
  | assign {line : Int} {target : Loc} {value : Expr} {slot : Slot} {v : Value} {f' : Frame}
      {s' : State} :
      resolve c.table s.heap f target = .ok slot → eval s.heap f value = .ok v →
      slot.write v f s = .ok (f', s') →
      Executes c f s (.assign line target value) (done f' s' none)
  | seq {line : Int} {first rest : Stmt} {e : Effect} :
      Executes c f s first e →
      Executes c f s (.seq line first rest) { e with action := e.action.followedBy rest }
  | ifThen {line : Int} {condition : Expr} {body : Stmt} {holds : Bool} :
      eval s.heap f condition = .ok (.bool holds) →
      Executes c f s (.ifThen line condition body)
        (done f s (if holds then some body else none))
  | ifElse {line : Int} {condition : Expr} {body other : Stmt} {holds : Bool} :
      eval s.heap f condition = .ok (.bool holds) →
      Executes c f s (.ifElse line condition body other)
        (done f s (if holds then some body else some other))
  | «while» {line : Int} {condition : Expr} {body : Stmt} {holds : Bool} :
      eval s.heap f condition = .ok (.bool holds) →
      Executes c f s (.while line condition body)
        (done f s (if holds then some (.seq (-1) body (.while line condition body)) else none))
  | create {line : Int} {target : Loc} {className : String} {args : List Expr} {slot : Slot}
      {fields : Fields} {f' : Frame} {s' : State} :
      prepare c f s target className args = .ok (slot, fields) →
      slot.write (.object (s.heap.allocate className fields).1) f
        { s with heap := (s.heap.allocate className fields).2 } = .ok (f', s') →
      constructorBody? c.table className = none →
      Executes c f s (.create line target className args) (done f' s' none)
  | construct {line : Int} {target : Loc} {className : String} {args : List Expr} {slot : Slot}
      {fields : Fields} {f' : Frame} {s' : State} {body : Stmt} :
      prepare c f s target className args = .ok (slot, fields) →
      slot.write (.object (s.heap.allocate className fields).1) f
        { s with heap := (s.heap.allocate className fields).2 } = .ok (f', s') →
      constructorBody? c.table className = some body →
      Executes c f s (.create line target className args)
        ⟨f', s'.takeFrameId.2, "",
          .spawn ⟨some body, [], (s.heap.allocate className fields).1, s'.takeFrameId.1, false⟩
            none⟩
  | call {line : Int} {target : Option Loc} {receiver : Expr} {method : String}
      {args : List Expr} {r : ObjectRef} {m : MethodInfo} {body : Stmt} {vs : List Value} :
      eval s.heap f receiver = .ok (.object r) →
      callee c.table r method args.length = .ok (m, body) → evalAll s.heap f args = .ok vs →
      Executes c f s (.call line target receiver method args)
        ⟨f, s.takeFrameId.2, "",
          .spawn ⟨some body, bindParameters m.params vs, r, s.takeFrameId.1, true⟩
            (some (.store line target))⟩
  | ret {line : Int} : Executes c f s (.ret line none) ⟨f, s, "", .ret .null⟩
  | retValue {line : Int} {value : Expr} {v : Value} :
      eval s.heap f value = .ok v → Executes c f s (.ret line (some value)) ⟨f, s, "", .ret v⟩
  | print {line : Int} {value : Expr} {v : Value} :
      eval s.heap f value = .ok v →
      Executes c f s (.print line value) ⟨f, s, concatPart v ++ "\n", .proceed none false⟩
  | breakpoint {line : Int} :
      Executes c f s (.breakpoint line) ⟨f, s, "", .proceed none true⟩
  | member {line : Int} {target : Loc} {query : Expr} {text : String} {ts : List Rdf.Term}
      {v : Value} {heap : Heap} :
      memberText c f s target query = .ok text → c.base.members s c.view text = .ok ts →
      Lower.lowerTerms c.base.prefixes s.heap (ts.map some) = .ok (v, heap) →
      Executes c f s (.member line target query)
        (done f { s with heap := heap } (some (.assign line target (.lit v))))
  | access {line : Int} {target : Loc} {query : Expr} {params : List Expr} {text : String}
      {answer : Query.Table} {v : Value} {heap : Heap} :
      accessText c f s target query params = .ok text →
      c.base.query s c.view text = .ok answer →
      Lower.lowerTable c.base.prefixes s.heap answer = .ok (v, heap) →
      Executes c f s (.access line target query params)
        (done f { s with heap := heap } (some (.assign line target (.lit v))))

variable {c : Context} {f : Frame} {s : State} {a : Stmt} {e : Effect} {v : Value} {b : Bool}
  {line : Int} {target : Loc}

lemma truth_eq_ok {bad : Value → Fault} : truth bad v = .ok b ↔ v = .bool b := by
  cases v <;> simp [truth]

lemma assignAnswers_eq_ok {x : Except Lower.Misfit (Value × Heap)} :
    assignAnswers f s line target x = .ok e ↔ ∃ v heap, x = .ok (v, heap) ∧
      done f { s with heap := heap } (some (.assign line target (.lit v))) = e := by
  rcases x with m | ⟨v, heap⟩ <;> simp [assignAnswers]

lemma answered_eq_ok {α : Type} {x : Checked α} {r : α} : answered x = .ok r ↔ x = .ok r := by
  cases x <;> simp [answered]

lemma executes_create {className : String} {args : List Expr}
    (he : create c f s target className args = .ok e) :
    Executes c f s (.create line target className args) e := by
  simp only [create, bind_eq_ok, faultAt_eq_ok] at he
  obtain ⟨⟨slot, fields⟩, hprep, ⟨f', s'⟩, hw, he⟩ := he
  split at he
  · rename_i hbody
    cases he
    exact .create hprep hw hbody
  · rename_i body hbody
    cases he
    exact .construct hprep hw hbody

lemma executes_access {query : Expr} {params : List Expr}
    (he : access c f s line target query params = .ok e) :
    Executes c f s (.access line target query params) e := by
  simp only [access, bind_eq_ok, faultAt_eq_ok] at he
  obtain ⟨text, htext, he⟩ := he
  split at he
  · rename_i answer hanswer
    obtain ⟨v, heap, hlist, rfl⟩ := assignAnswers_eq_ok.1 (faultAt_eq_ok.1 he)
    exact .access htext hanswer hlist
  · simp [throw, throwThe, MonadExceptOf.throw] at he
  · simp [throw, throwThe, MonadExceptOf.throw] at he

/-- Whatever a statement does, a rule says. -/
lemma executes_of_exec (he : exec c f s a = .ok e) : Executes c f s a e := by
  induction a generalizing e with
  | skip line =>
    cases he
    exact .skip
  | assign line target value =>
    simp only [exec, faultAt_eq_ok, assign, bind_eq_ok, pure_eq_ok] at he
    obtain ⟨slot, hslot, v, hv, ⟨f', s'⟩, hw, rfl⟩ := he
    exact .assign hslot hv hw
  | seq line first rest ih _ =>
    simp only [exec, bind_eq_ok, pure_eq_ok] at he
    obtain ⟨d, hd, rfl⟩ := he
    exact .seq (ih hd)
  | ifThen line condition body =>
    simp only [exec, faultAt_eq_ok, branch, bind_eq_ok, pure_eq_ok, truth_eq_ok] at he
    obtain ⟨_, hv, holds, rfl, rfl⟩ := he
    exact .ifThen hv
  | ifElse line condition body other =>
    simp only [exec, faultAt_eq_ok, branch, bind_eq_ok, pure_eq_ok, truth_eq_ok] at he
    obtain ⟨_, hv, holds, rfl, rfl⟩ := he
    exact .ifElse hv
  | «while» line condition body =>
    simp only [exec, faultAt_eq_ok, loop, bind_eq_ok, pure_eq_ok, truth_eq_ok] at he
    obtain ⟨_, hv, holds, rfl, rfl⟩ := he
    exact .while hv
  | create line target className args => exact executes_create he
  | call line target receiver method args =>
    simp only [exec, faultAt_eq_ok, call, bind_eq_ok, pure_eq_ok] at he
    obtain ⟨v, hv, r, hr, ⟨m, body⟩, hm, vs, hvs, rfl⟩ := he
    rw [receiverOf_eq_ok hr] at hv
    exact .call hv hm hvs
  | ret line value =>
    cases value with
    | none =>
      cases he
      exact .ret
    | some value =>
      simp only [exec, faultAt_eq_ok, giveBack, bind_eq_ok, pure_eq_ok] at he
      obtain ⟨v, hv, rfl⟩ := he
      exact .retValue hv
  | print line value =>
    simp only [exec, faultAt_eq_ok, print, bind_eq_ok, pure_eq_ok] at he
    obtain ⟨v, hv, rfl⟩ := he
    exact .print hv
  | breakpoint line =>
    cases he
    exact .breakpoint
  | member line target query =>
    simp only [exec, faultAt_eq_ok, member, bind_eq_ok, answered_eq_ok,
      assignAnswers_eq_ok] at he
    obtain ⟨text, htext, ts, hts, v, heap, hlist, rfl⟩ := he
    exact .member htext hts hlist
  | access line target query params => exact executes_access he
  | store => simp [exec] at he

/-- What a rule says, the statement does. -/
lemma exec_of_executes (he : Executes c f s a e) : exec c f s a = .ok e := by
  induction he with
  | skip | ret | breakpoint => rfl
  | assign hslot hv hw =>
    simp only [exec, faultAt_eq_ok, assign, bind_eq_ok, pure_eq_ok]
    exact ⟨_, hslot, _, hv, _, hw, rfl⟩
  | seq _ ih =>
    simp only [exec, bind_eq_ok, pure_eq_ok]
    exact ⟨_, ih, rfl⟩
  | ifThen hv | ifElse hv =>
    simp only [exec, faultAt_eq_ok, branch, bind_eq_ok, pure_eq_ok, truth_eq_ok]
    exact ⟨_, hv, _, rfl, rfl⟩
  | «while» hv =>
    simp only [exec, faultAt_eq_ok, loop, bind_eq_ok, pure_eq_ok, truth_eq_ok]
    exact ⟨_, hv, _, rfl, rfl⟩
  | create hprep hw hbody | construct hprep hw hbody =>
    simp only [exec, create, bind_eq_ok, faultAt_eq_ok]
    exact ⟨_, hprep, _, hw, by rw [hbody]; rfl⟩
  | call hv hm hvs =>
    simp only [exec, faultAt_eq_ok, call, bind_eq_ok, pure_eq_ok]
    exact ⟨_, hv, _, rfl, _, hm, _, hvs, rfl⟩
  | retValue hv =>
    simp only [exec, faultAt_eq_ok, giveBack, bind_eq_ok, pure_eq_ok]
    exact ⟨_, hv, rfl⟩
  | print hv =>
    simp only [exec, faultAt_eq_ok, print, bind_eq_ok, pure_eq_ok]
    exact ⟨_, hv, rfl⟩
  | member htext hts hlist =>
    simp only [exec, faultAt_eq_ok, member, bind_eq_ok, answered_eq_ok, assignAnswers_eq_ok]
    exact ⟨_, htext, _, hts, _, _, hlist, rfl⟩
  | access htext hanswer hlist =>
    simp only [exec, access, bind_eq_ok, faultAt_eq_ok]
    refine ⟨_, htext, ?_⟩
    rw [hanswer]
    exact faultAt_eq_ok.2 (assignAnswers_eq_ok.2 ⟨_, _, hlist, rfl⟩)

/-- **The rules say what statements do**: no more and no less. -/
theorem exec_eq_ok : exec c f s a = .ok e ↔ Executes c f s a e :=
  ⟨executes_of_exec, exec_of_executes⟩

/-! ### Steps -/

namespace Machine

/-- The state of a machine with only the frames below the running one. -/
def popped (m : Machine) (below : List Frame) : State := { m.state with stack := below }

/-- How a step ends, and the machine after it. -/
inductive Steps (m : Machine) : Except Failure Outcome × Machine → Prop where
  /-- Nothing is left to run. -/
  | ended : m.state.stack = [] → Steps m (.ok ⟨false, false⟩, m)
  | finished {f : Frame} {below : List Frame} {s : State} :
      m.state.stack = f :: below → f.active = none → finish f .null (m.popped below) = .ok s →
      Steps m (settled { m with steps := m.steps + 1 } s false)
  | unfinished {f : Frame} {below : List Frame} {x : Failure} :
      m.state.stack = f :: below → f.active = none →
      finish f .null (m.popped below) = .error x →
      Steps m (.error x, { m with state := m.popped below })
  | failed {f : Frame} {below : List Frame} {a : Stmt} {x : Failure} :
      m.state.stack = f :: below → f.active = some a →
      exec m.context f (m.popped below) a = .error (.failure x) →
      Steps m (.error x,
        { m with
          base := knowledgeAfter m.context f (m.popped below) a
          state := m.popped below })
  | faulted {f : Frame} {below : List Frame} {a : Stmt} {fault : Fault} {left : State} :
      m.state.stack = f :: below → f.active = some a →
      exec m.context f (m.popped below) a = .error (.fault fault left) →
      Steps m (.error (.reported (fault.diagnostic.atStatement a.headSpan)),
        { m with
          base := knowledgeAfter m.context f (m.popped below) a
          state := left.push f })
  | uncommitted {f : Frame} {below : List Frame} {a : Stmt} {e : Effect} {x : Failure} :
      m.state.stack = f :: below → f.active = some a →
      exec m.context f (m.popped below) a = .ok e → e.commit = .error x →
      Steps m (.error x,
        { m with
          base := knowledgeAfter m.context f (m.popped below) a
          steps := m.steps + 1
          printed := m.printed ++ e.printed
          state := e.state })
  | committed {f : Frame} {below : List Frame} {a : Stmt} {e : Effect} {s : State} :
      m.state.stack = f :: below → f.active = some a →
      exec m.context f (m.popped below) a = .ok e → e.commit = .ok s →
      Steps m (settled
        { m with
          base := knowledgeAfter m.context f (m.popped below) a
          steps := m.steps + 1
          printed := m.printed ++ e.printed }
        s e.breakpoint)

variable {m n : Machine} {t : ClassTable} {f : Frame} {below : List Frame}

/-- **The rules of steps** say what each step does. -/
theorem steps_step (m : Machine) : m.Steps m.step := by
  unfold step
  split
  · rename_i hstack
    exact .ended hstack
  · rename_i f below hstack
    dsimp only
    split
    · rename_i hactive
      unfold stepFinished
      split
      · rename_i x hx
        exact .unfinished hstack hactive hx
      · rename_i s hs
        exact .finished hstack hactive hs
    · rename_i a hactive
      unfold stepActive
      dsimp only
      split
      · rename_i x hx
        exact .failed hstack hactive hx
      · rename_i fault left hx
        exact .faulted hstack hactive hx
      · rename_i e he
        split
        · rename_i x hx
          exact .uncommitted hstack hactive he hx
        · rename_i s hs
          exact .committed hstack hactive he hs

lemma sound_popped (hm : m.state.Sound t) (hstack : m.state.stack = f :: below) :
    f.Sound (m.popped below).heap ∧ (m.popped below).Sound t := by
  have hf : ∀ k ∈ f :: below, k.Sound m.state.heap := hstack ▸ hm.frames
  exact ⟨hf f (by simp), hm.heap, hm.root, fun k hk => hf k (List.mem_cons_of_mem _ hk)⟩

/-- After a step that was carried out a collection may follow. -/
lemma settled_cases (m : Machine) (s : State) (breakpoint : Bool) :
    (m.settled s breakpoint).2 = { m with state := s } ∨
    (m.settled s breakpoint).2 = { m with state := s.collect.2 } := by
  unfold settled collectIfDue
  dsimp only
  split
  · exact .inr rfl
  · exact .inl rfl

/-- What a machine is set up with is the same: no step changes it. -/
structure SameSetup (m n : Machine) : Prop where
  table : n.table = m.table
  view : n.view = m.view
  gcInterval : n.gcInterval = m.gcInterval

lemma sameSetup_settled {s : State} {breakpoint : Bool} (h : m.SameSetup n) :
    m.SameSetup (n.settled s breakpoint).2 := by
  rcases settled_cases n s breakpoint with he | he <;> rw [he] <;>
    exact ⟨h.table, h.view, h.gcInterval⟩

lemma sameSetup_step (m : Machine) : m.SameSetup m.step.2 := by
  have hsteps := m.steps_step
  generalize m.step = x at hsteps ⊢
  cases hsteps with
  | finished | committed => exact sameSetup_settled ⟨rfl, rfl, rfl⟩
  | ended | unfinished | failed | faulted | uncommitted => exact ⟨rfl, rfl, rfl⟩

end Machine

end Semlift.Run
