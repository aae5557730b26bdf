import Semlift.Proofs.Run.Residual
import Semlift.Proofs.Store.Reachable

/-!
One statement in two states that differ in objects which only the larger one has. What a statement
names is alive in the smaller state, so it finds the same there: it has the same effect, or the same
fault, as long as it does not ask what is known.
-/

namespace Semlift.Run

open Semlift.Lang Semlift.Program Semlift.Store

variable {p : Source} {t : ClassTable} {c : Context} {h g : Heap} {f : Frame} {s s₀ : State}
  {a : Stmt} {v : Value}

/-! ### Values and places -/

lemma readField_within {field : String} (hv : h.Supports v) (hw : h.Within g) :
    readField h field v = readField g field v := by
  cases v with
  | object r => rw [readField, readField, hw.fields? (Heap.supports_object.1 hv)]
  | _ => rfl

/-- **An expression has the same value** in both heaps, or the same fault. -/
theorem eval_within {e : Expr} (hs : h.Sound t) (hf : f.Sound h) (he : ∀ r ∈ e.refs, h.Alive r)
    (hw : h.Within g) : eval h f e = eval g f e := by
  induction e with
  | lit | var | this => rfl
  | own field => exact readField_within (Heap.supports_object.2 hf.owner) hw
  | field e field ih =>
    rw [eval, eval, ← ih he]
    cases hv : eval h f e with
    | error q => rfl
    | ok v => exact readField_within (supports_eval (e := e) hs hf he hv) hw
  | unary op e ih => rw [eval, eval, ← ih he]
  | binary op a b iha ihb =>
    obtain ⟨ha, hb⟩ := List.forall_mem_append.1 he
    have ea := iha ha
    have eb := ihb hb
    cases op <;> simp only [eval, ea, eb]

lemma evalAll_within {es : List Expr} (hs : h.Sound t) (hf : f.Sound h)
    (he : ∀ r ∈ es.flatMap Expr.refs, h.Alive r) (hw : h.Within g) :
    evalAll h f es = evalAll g f es :=
  mapM_congr fun e hm =>
    eval_within hs hf (fun r hr => he r (List.mem_flatMap.2 ⟨e, hm, hr⟩)) hw

lemma resolve_within {target : Loc} (hs : h.Sound t) (hf : f.Sound h)
    (hl : ∀ r ∈ target.refs, h.Alive r) (hw : h.Within g) :
    resolve t h f target = resolve t g f target := by
  cases target with
  | var | own => rfl
  | field e field => rw [resolve, resolve, eval_within hs hf hl hw]

lemma write_within {slot : Slot} (hopen : slot.Open t s.heap) (hw : s.Within s₀) :
    Alike Eq (fun x y => x.1 = y.1 ∧ x.2.Within y.2) (slot.write v f s) (slot.write v f s₀) := by
  cases slot with
  | «variable» name => exact .ok ⟨rfl, hw⟩
  | field r name =>
    have hsome := hopen.1.fields?_isSome
    rw [Slot.write, Slot.write, ← hw.heap.fields? hopen.1, if_pos hsome, if_pos hsome]
    exact .ok ⟨rfl, hw.withHeap hw.heap.write⟩

/-! ### Effects -/

structure Effect.Within (e e₀ : Effect) : Prop where
  frame : e.frame = e₀.frame
  printed : e.printed = e₀.printed
  action : e.action = e₀.action
  state : e.state.Within e₀.state

lemma Effect.Within.breakpoint {e e₀ : Effect} (he : e.Within e₀) :
    e.breakpoint = e₀.breakpoint := by
  rw [Effect.breakpoint, Effect.breakpoint, he.action]

/-- The same fault, leaving states that differ as little as before, or the same failure. -/
inductive Halt.Within : Halt → Halt → Prop where
  | fault {fault : Fault} {left left₀ : State} :
      left.Within left₀ → Within (.fault fault left) (.fault fault left₀)
  | failure {x : Failure} : Within (.failure x) (.failure x)

/-- What a statement does in the smaller state it does in the larger one. -/
abbrev Follows : Except Halt Effect → Except Halt Effect → Prop := Alike Halt.Within Effect.Within

lemma done_within {residual : Option Stmt} (hw : s.Within s₀) :
    (done f s residual).Within (done f s₀ residual) :=
  ⟨rfl, rfl, rfl, hw⟩

lemma faultAt_within {α α' : Type} {R : α → α' → Prop} {x : Except Fault α} {y : Except Fault α'}
    (hw : s.Within s₀) (hx : Alike Eq R x y) :
    Alike Halt.Within R (faultAt s x) (faultAt s₀ y) := by
  cases hx with
  | ok h => exact .ok h
  | error h => exact h ▸ .error (.fault hw)

/-! ### The forms of statements -/

lemma assign_within {line : Int} {target : Loc} {value : Expr} (hs : s.Sound c.table)
    (hf : f.Sound s.heap) (ha : s.heap.Backs (.assign line target value)) (hw : s.Within s₀) :
    Alike Eq Effect.Within (assign c f s target value) (assign c f s₀ target value) := by
  obtain ⟨htarget, hvalue⟩ := List.forall_mem_append.1 ha
  unfold assign
  rw [← resolve_within hs.heap hf htarget hw.heap, ← eval_within hs.heap hf hvalue hw.heap]
  refine .bind_left fun slot hslot => .bind_left fun v _ => ?_
  refine (write_within (open_resolve hs.heap hf htarget hslot) hw).bind ?_
  rintro ⟨f', s'⟩ ⟨_, s₀'⟩ - ⟨rfl, hw'⟩
  exact .ok (done_within hw')

lemma branch_within {condition : Expr} {body : Stmt} {other : Option Stmt}
    (hs : s.heap.Sound t) (hf : f.Sound s.heap) (hc : ∀ r ∈ condition.refs, s.heap.Alive r)
    (hw : s.Within s₀) :
    Alike Eq Effect.Within (branch f s condition body other)
      (branch f s₀ condition body other) := by
  unfold branch
  rw [← eval_within hs hf hc hw.heap]
  exact .bind_left fun v _ => .bind_left fun holds _ => .ok (done_within hw)

lemma loop_within {condition : Expr} {whole body : Stmt} (hs : s.heap.Sound t)
    (hf : f.Sound s.heap) (hc : ∀ r ∈ condition.refs, s.heap.Alive r) (hw : s.Within s₀) :
    Alike Eq Effect.Within (loop f s whole condition body) (loop f s₀ whole condition body) := by
  unfold loop
  rw [← eval_within hs hf hc hw.heap]
  exact .bind_left fun v _ => .bind_left fun holds _ => .ok (done_within hw)

lemma create_within {line : Int} {target : Loc} {className : String} {args : List Expr}
    (ht : c.table.Proper p) (hs : s.Sound c.table) (hf : f.Sound s.heap)
    (ha : s.heap.Backs (.create line target className args)) (hw : s.Within s₀) :
    Follows (create c f s target className args) (create c f s₀ target className args) := by
  obtain ⟨htarget, hargs⟩ := List.forall_mem_append.1 ha
  have hprepare : prepare c f s₀ target className args = prepare c f s target className args := by
    unfold prepare
    rw [resolve_within hs.heap hf htarget hw.heap, evalAll_within hs.heap hf hargs hw.heap]
  have hnext : s₀.heap.next = s.heap.next := hw.heap.next.symm
  unfold create
  rw [hprepare]
  refine (faultAt_within hw (R := Eq) ?_).bind ?_
  · cases prepare c f s target className args with
    | ok x => exact .ok rfl
    | error q => exact .error rfl
  rintro ⟨slot, fields⟩ _ hx rfl
  obtain ⟨hopen, -, -⟩ := sound_prepare ht hs hf ha (faultAt_eq_ok.1 hx)
  have hw' := hw.withHeap (hw.heap.allocate className fields)
  simp only [Heap.allocate, hnext] at hw' ⊢
  refine (faultAt_within hw' (write_within (hopen.mono Heap.keeps_allocate) hw')).bind ?_
  rintro ⟨f', s'⟩ ⟨_, s₀'⟩ - ⟨rfl, hs'⟩
  cases constructorBody? c.table className with
  | none => exact .ok (done_within hs')
  | some body =>
    have hid : s'.nextFrame = s₀'.nextFrame := hs'.nextFrame
    refine .ok ⟨rfl, rfl, ?_, hs'.takeFrameId⟩
    simp only [State.takeFrameId, hid]

lemma call_within {line : Int} {target : Option Loc} {receiver : Expr} {method : String}
    {args : List Expr} (hs : s.Sound t) (hf : f.Sound s.heap)
    (ha : s.heap.Backs (.call line target receiver method args)) (hw : s.Within s₀) :
    Alike Eq Effect.Within (call c f s line target receiver method args)
      (call c f s₀ line target receiver method args) := by
  obtain ⟨hfirst, hargs⟩ := List.forall_mem_append.1 ha
  obtain ⟨-, hreceiver⟩ := List.forall_mem_append.1 hfirst
  unfold call
  rw [← eval_within hs.heap hf hreceiver hw.heap, ← evalAll_within hs.heap hf hargs hw.heap]
  refine .bind_left fun v _ => .bind_left fun r _ => .bind_left fun m _ => .bind_left fun vs _ => ?_
  refine .ok ⟨rfl, rfl, ?_, hw.takeFrameId⟩
  simp only [hw.nextFrame]

lemma giveBack_within {line : Int} {value : Option Expr} (hs : s.heap.Sound t)
    (hf : f.Sound s.heap) (ha : s.heap.Backs (.ret line value)) (hw : s.Within s₀) :
    Alike Eq Effect.Within (giveBack f s value) (giveBack f s₀ value) := by
  cases value with
  | none => exact .ok ⟨rfl, rfl, rfl, hw⟩
  | some value =>
    simp only [giveBack]
    rw [← eval_within hs hf ha hw.heap]
    exact .bind_left fun v _ => .ok ⟨rfl, rfl, rfl, hw⟩

lemma print_within {line : Int} {value : Expr} (hs : s.heap.Sound t) (hf : f.Sound s.heap)
    (ha : s.heap.Backs (.print line value)) (hw : s.Within s₀) :
    Alike Eq Effect.Within (print f s value) (print f s₀ value) := by
  unfold print
  rw [← eval_within hs hf ha hw.heap]
  exact .bind_left fun v _ => .ok ⟨rfl, rfl, rfl, hw⟩

/-! ### Statements -/

/-- **A statement that asks nothing** does the same in both states. -/
theorem exec_within (ht : c.table.Proper p) (hs : s.Sound c.table) (hf : f.Sound s.heap)
    (ha : s.heap.Backs a) (hq : a.Without Stmt.asks) (hw : s.Within s₀) :
    Follows (exec c f s a) (exec c f s₀ a) := by
  induction a with
  | skip line => exact .ok (done_within hw)
  | assign line target value => exact faultAt_within hw (assign_within hs hf ha hw)
  | seq line first rest ih _ =>
    refine (ih (backs_seq.1 ha).1 ((Stmt.without_seq Stmt.authored_asks).1 hq).1).bind ?_
    rintro e e₀ - he
    exact .ok ⟨he.frame, he.printed, by rw [he.action], he.state⟩
  | ifThen line condition body =>
    exact faultAt_within hw (branch_within hs.heap hf (List.forall_mem_append.1 ha).1 hw)
  | ifElse line condition body other =>
    have hfirst := (List.forall_mem_append.1 ha).1
    exact faultAt_within hw (branch_within hs.heap hf (List.forall_mem_append.1 hfirst).1 hw)
  | «while» line condition body =>
    exact faultAt_within hw (loop_within hs.heap hf (List.forall_mem_append.1 ha).1 hw)
  | create line target className args => exact create_within ht hs hf ha hw
  | call line target receiver method args => exact faultAt_within hw (call_within hs hf ha hw)
  | ret line value => exact faultAt_within hw (giveBack_within hs.heap hf ha hw)
  | print line value => exact faultAt_within hw (print_within hs.heap hf ha hw)
  | breakpoint line => exact .ok ⟨rfl, rfl, rfl, hw⟩
  | member | access => exact absurd hq.self (by simp [Stmt.asks])
  | store line target => exact .error .failure

/-- What asks nothing changes nothing that is known. -/
lemma knowledgeAfter_of_without (hq : a.Without Stmt.asks) : knowledgeAfter c f s a = c.base := by
  induction a with
  | seq line first rest ih _ => exact ih ((Stmt.without_seq Stmt.authored_asks).1 hq).1
  | member => exact absurd hq.self (by simp [Stmt.asks])
  | _ => rfl

/-! ### Frames that end -/

lemma finish_within (hw : s.Within s₀) :
    Alike Eq State.Within (finish f v s) (finish f v s₀) := by
  unfold finish
  rw [← hw.stack]
  split
  · split
    · exact .error rfl
    · split
      · exact .error rfl
      · exact .ok hw.withStack
  · exact .ok hw

lemma commit_within {e e₀ : Effect} (he : e.Within e₀) :
    Alike Eq State.Within e.commit e₀.commit := by
  unfold Effect.commit
  rw [← he.action, ← he.frame]
  split
  · exact finish_within he.state
  · exact .ok he.state.push
  · exact .ok he.state.push.push
  · exact finish_within he.state

end Semlift.Run
