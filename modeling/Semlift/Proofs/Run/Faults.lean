import Semlift.Proofs.Lang.Nesting
import Semlift.Proofs.Run.Exec

/-!
Why statements fail. An expression has no value because something in it does not fit, or because a
reference dangles. A statement fails for such a reason, because of the class or the method that it
names, or because a question has no answer; a sequence fails with the statement at its head. In a
sound state no reference dangles.
-/

namespace Semlift.Lang

lemma Stmt.refs_head_subset (a : Stmt) : a.head.refs ⊆ a.refs := by
  induction a with
  | seq n a b ih _ => exact List.Subset.trans ih (List.subset_append_left _ _)
  | _ => exact List.Subset.refl _

end Semlift.Lang

namespace Semlift.Run

open Semlift.Lang Semlift.Program Semlift.Store

variable {t : ClassTable} {c : Context} {h : Heap} {f : Frame} {s left : State} {a : Stmt}
  {e : Expr} {es : List Expr} {refs refs' : List ObjectRef} {q : Fault} {v l r : Value} {slot : Slot}
  {line : Int} {target : Loc} {field : String} {args : List Expr}

/-- What a statement asks with, as a fault names it. -/
def questionNames : List String := ["member query", "access query"]

/-- A fault of a statement for which no question was left without an answer, and which no check
before the run would have found. -/
def Fault.ordinary : Fault → Bool
  | .dangling _ | .unknownClass _ | .abstractClass _ | .abstractMethod _ _ | .unanswered _ => false
  | .badQuestion what _ => questionNames.contains what
  | _ => true

/-- What keeps an expression over some references from having a value. -/
inductive Unevaluable (h : Heap) (f : Frame) (refs : List ObjectRef) : Fault → Prop where
  | ordinary {q : Fault} (hq : q.ordinary = true) : Unevaluable h f refs q
  /-- A part of the expression gives an object that is not alive. -/
  | dangling {e : Expr} {r : ObjectRef} (he : e.refs ⊆ refs) (hv : eval h f e = .ok (.object r))
      (hr : ¬h.Alive r) : Unevaluable h f refs (.dangling r)

lemma Unevaluable.mono (hsub : refs ⊆ refs') (hq : Unevaluable h f refs q) :
    Unevaluable h f refs' q := by
  cases hq with
  | ordinary hq => exact .ordinary hq
  | dangling he hv hr => exact .dangling (List.Subset.trans he hsub) hv hr

/-- In a sound state nothing dangles. -/
lemma Unevaluable.ordinary_of_sound (hq : Unevaluable h f refs q) (hs : h.Sound t)
    (hf : f.Sound h) (hrefs : ∀ r ∈ refs, h.Alive r) : q.ordinary = true := by
  cases hq with
  | ordinary hq => exact hq
  | dangling he hv hr =>
    have hlive := supports_eval hs hf (fun r hr => hrefs r (he hr)) hv
    exact absurd (Heap.supports_object.1 hlive) hr

/-- A fault that nothing dangles for. -/
lemma errs_ordinary {α : Type} (hq : q.ordinary = true) :
    Errs (Unevaluable h f refs) (.error q : Except Fault α) :=
  errs_error (.ordinary hq)

/-! ### Operators and fields -/

lemma errs_arithmetic {x : Arithmetic} {op : String} :
    Errs (Unevaluable h f refs) (x.apply op l r) := by
  unfold Arithmetic.apply
  split
  · exact errs_ordinary rfl
  all_goals
    split
    · exact errs_ordinary rfl
    · exact errs_ok

lemma errs_comparison {holds : Ordering → Bool} {op : String} :
    Errs (Unevaluable h f refs) (comparison holds op l r) := by
  unfold comparison
  split
  · exact errs_ok
  · exact errs_ordinary rfl

lemma errs_applyBinary {op : BinaryOp} : Errs (Unevaluable h f refs) (applyBinary op l r) := by
  cases op <;> simp only [applyBinary]
  case add =>
    split
    · exact errs_ok
    · exact errs_arithmetic
  case sub | mul | div | mod => exact errs_arithmetic
  case lt | le | gt | ge => exact errs_comparison
  case eq | ne => exact errs_ok
  case and | or => exact errs_ordinary rfl

lemma errs_applyUnary {op : UnaryOp} : Errs (Unevaluable h f refs) (applyUnary op v) := by
  unfold applyUnary
  split
  · exact errs_ok
  · exact errs_ok
  · exact errs_ok
  · exact errs_ordinary rfl

lemma errs_rightTruth {op : BinaryOp} : Errs (Unevaluable h f refs) (rightTruth op l r) := by
  unfold rightTruth
  split
  · exact errs_ok
  · exact errs_ordinary rfl

lemma errs_readField (he : e.refs ⊆ refs) (hv : eval h f e = .ok v) :
    Errs (Unevaluable h f refs) (readField h field v) := by
  unfold readField
  split
  · exact errs_ordinary rfl
  · rename_i r
    split
    · rename_i hnone
      have hdead : ¬h.Alive r := fun hr => by simpa [hnone] using hr.fields?_isSome
      exact errs_error (.dangling he hv hdead)
    · split
      · exact errs_ordinary rfl
      · exact errs_ok
  · exact errs_ordinary rfl

/-! ### Expressions and places -/

/-- **An expression has no value** because something in it does not fit or dangles. -/
theorem errs_eval : Errs (Unevaluable h f e.refs) (eval h f e) := by
  induction e with
  | lit | this => exact errs_ok
  | var name =>
    simp only [eval]
    split
    · exact errs_ok
    · exact errs_ordinary rfl
  | own field => exact errs_readField (e := .this) (List.nil_subset _) rfl
  | field e field ih => exact ih.bind fun _ hv => errs_readField (List.Subset.refl _) hv
  | unary op e ih => exact ih.bind fun _ _ => errs_applyUnary
  | binary op a b iha ihb =>
    have iha := iha.mono fun _ => Unevaluable.mono (List.subset_append_left _ b.refs)
    have ihb := ihb.mono fun _ => Unevaluable.mono (List.subset_append_right a.refs _)
    -- `and` and `or` look at the left operand before the right one is evaluated
    cases op
    case and | or =>
      refine iha.bind fun v _ => ?_
      split
      · exact errs_ok
      · exact ihb.bind fun _ _ => errs_rightTruth
      · exact errs_ordinary rfl
    all_goals exact iha.bind fun _ _ => ihb.bind fun _ _ => errs_applyBinary

lemma errs_eval_of_subset (he : e.refs ⊆ refs) : Errs (Unevaluable h f refs) (eval h f e) :=
  errs_eval.mono fun _ => Unevaluable.mono he

lemma errs_evalAll (hes : es.flatMap Expr.refs ⊆ refs) :
    Errs (Unevaluable h f refs) (evalAll h f es) :=
  .mapM fun _ he => errs_eval_of_subset fun _ hr => hes (List.mem_flatMap_of_mem he hr)

lemma errs_evalString {what : String} (hwhat : questionNames.contains what = true)
    (he : e.refs ⊆ refs) : Errs (Unevaluable h f refs) (evalString h f what e) := by
  refine (errs_eval_of_subset he).bind fun v _ => ?_
  split
  · exact errs_ok
  · exact errs_ordinary hwhat

lemma errs_fieldSlot : Errs (Unevaluable h f refs) (fieldSlot t field v) := by
  unfold fieldSlot
  split
  · exact errs_ordinary rfl
  · split
    · exact errs_ok
    · exact errs_ordinary rfl
  · exact errs_ordinary rfl

lemma errs_resolve (hl : target.refs ⊆ refs) :
    Errs (Unevaluable h f refs) (resolve t h f target) := by
  cases target with
  | var name => exact errs_ok
  | own field => exact errs_fieldSlot (v := .object f.owner)
  | field e field => exact (errs_eval_of_subset hl).bind fun _ _ => errs_fieldSlot

lemma fieldSlot_eq_ok (hx : fieldSlot t field v = .ok slot) :
    ∃ r, v = .object r ∧ slot = .field r field := by
  unfold fieldSlot at hx
  split at hx
  · cases hx
  · split at hx <;> cases hx
    exact ⟨_, rfl, rfl⟩
  · cases hx

/-- The object that a place belongs to is the value of an expression. -/
lemma eval_of_resolve {r : ObjectRef} (hx : resolve t h f target = .ok (.field r field)) :
    ∃ e : Expr, e.refs ⊆ target.refs ∧ eval h f e = .ok (.object r) := by
  cases target with
  | var name => cases hx
  | own name =>
    obtain ⟨_, hv, hslot⟩ := fieldSlot_eq_ok (v := .object f.owner) hx
    cases hslot
    exact ⟨.this, List.nil_subset _, congrArg _ hv⟩
  | field e name =>
    obtain ⟨v, hv, hx⟩ := bind_eq_ok.1 hx
    obtain ⟨_, rfl, hslot⟩ := fieldSlot_eq_ok hx
    cases hslot
    exact ⟨e, List.Subset.refl _, hv⟩

/-- A place is written to, unless it belongs to an object that was dead already when the place was
found. -/
lemma errs_write {g : Frame} {k : State} (hl : target.refs ⊆ refs) (hk : h.Keeps k.heap)
    (hx : resolve t h f target = .ok slot) :
    Errs (Unevaluable h f refs) (slot.write v g k) := by
  unfold Slot.write
  split
  · exact errs_ok
  · split
    · exact errs_ok
    · rename_i hnone
      obtain ⟨e, he, hv⟩ := eval_of_resolve hx
      exact errs_error (.dangling (List.Subset.trans he hl) hv fun hr =>
        hnone (hk _ hr).fields?_isSome)

/-! ### Statements -/

/-- Why a statement fails that is no sequence. -/
inductive Cause (c : Context) (f : Frame) (s : State) : Stmt → Fault → Prop where
  | unevaluable {a : Stmt} {q : Fault} (hq : Unevaluable s.heap f a.refs q) : Cause c f s a q
  | unknownClass {line : Int} {target : Loc} {className : String} {args : List Expr}
      (hc : c.table.has className = false) :
      Cause c f s (.create line target className args) (.unknownClass className)
  | abstractClass {line : Int} {target : Loc} {className : String} {args : List Expr}
      (hc : c.table.isAbstract className = true) :
      Cause c f s (.create line target className args) (.abstractClass className)
  /-- The receiver has the method, but nothing to run for it. -/
  | abstractMethod {line : Int} {target : Option Loc} {receiver : Expr} {method : String}
      {args : List Expr} {r : ObjectRef} {m : MethodInfo}
      (hv : eval s.heap f receiver = .ok (.object r))
      (hl : c.table.lookup? r.className method = some m)
      (hm : m.abstract = true ∨ m.body = none) :
      Cause c f s (.call line target receiver method args) (.abstractMethod m.declaring method)
  | members {line : Int} {target : Loc} {query : Expr} {text : String} {d : Diagnostic}
      (hd : c.base.members s c.view text = .error d) :
      Cause c f s (.member line target query) (.unanswered d)
  | answers {line : Int} {target : Loc} {query : Expr} {params : List Expr} {text : String}
      {d : Diagnostic} (hd : c.base.query s c.view text = .error (.reported d)) :
      Cause c f s (.access line target query params) (.unanswered d)

/-- A failure that is a fault of the kind, or no fault at all. -/
def Halt.Of (P : Fault → Prop) : Halt → Prop
  | .fault q _ => P q
  | .failure _ => True

lemma errs_faultAt {α : Type} {P : Fault → Prop} {x : Except Fault α} (hx : Errs P x) :
    Errs (Halt.Of P) (faultAt s x) := by
  cases x with
  | ok a => exact errs_ok
  | error q => exact errs_error (hx q rfl)

lemma errs_assign {value : Expr} :
    Errs (Unevaluable s.heap f (.assign line target value : Stmt).refs)
      (assign c f s target value) := by
  have htarget : target.refs ⊆ (Stmt.assign line target value).refs := List.subset_append_left _ _
  refine (errs_resolve htarget).bind fun slot hslot => ?_
  refine (errs_eval_of_subset (List.subset_append_right _ _)).bind fun v _ => ?_
  exact (errs_write htarget (Heap.Keeps.refl _) hslot).bind fun _ _ => errs_ok

lemma errs_condition {bad : Value → Fault} {k : Bool → Effect}
    (hbad : ∀ v, (bad v).ordinary = true) (he : e.refs ⊆ refs) :
    Errs (Unevaluable h f refs)
      (eval h f e >>= fun v => truth bad v >>= fun b => .ok (k b)) := by
  refine (errs_eval_of_subset he).bind fun v _ => ?_
  refine Errs.bind ?_ fun b _ => errs_ok
  unfold truth
  split
  · exact errs_ok
  · exact errs_ordinary (hbad _)

lemma errs_checkCreation {className : String} {given : Nat} :
    Errs (Cause c f s (.create line target className args))
      (checkCreation c.table className given) := by
  have ordinary {q : Fault} (hq : q.ordinary = true) :
      Errs (Cause c f s (.create line target className args)) (.error q : Except Fault Unit) :=
    errs_error (.unevaluable (.ordinary hq))
  unfold checkCreation
  dsimp only
  split
  · rename_i hhas
    exact errs_error (.unknownClass (by simpa using hhas))
  · split
    · rename_i habstract
      exact errs_error (.abstractClass habstract)
    · split
      · exact ordinary rfl
      · split
        · split
          · exact errs_ok
          · exact ordinary rfl
        · exact errs_ok

lemma resolve_of_prepare {className : String} {fields : Fields}
    (hp : prepare c f s target className args = .ok (slot, fields)) :
    resolve c.table s.heap f target = .ok slot := by
  obtain ⟨_, -, hp⟩ := bind_eq_ok.1 hp
  obtain ⟨_, hslot, hp⟩ := bind_eq_ok.1 hp
  obtain ⟨_, -, hp⟩ := bind_eq_ok.1 hp
  cases hp
  exact hslot

lemma errs_create {className : String} :
    Errs (Halt.Of (Cause c f s (.create line target className args)))
      (create c f s target className args) := by
  have htarget : target.refs ⊆ (Stmt.create line target className args).refs :=
    List.subset_append_left _ _
  have hargs : args.flatMap Expr.refs ⊆ (Stmt.create line target className args).refs :=
    List.subset_append_right _ _
  have hprepare : Errs (Cause c f s (.create line target className args))
      (prepare c f s target className args) := by
    refine errs_checkCreation.bind fun _ _ => ?_
    refine ((errs_resolve htarget).mono fun _ => .unevaluable).bind fun _ _ => ?_
    exact ((errs_evalAll hargs).mono fun _ => .unevaluable).bind fun _ _ => errs_ok
  refine (errs_faultAt hprepare).bind fun ⟨slot, fields⟩ hp => ?_
  -- the place was found before the object was made, and what was alive then still is
  have hwrite := errs_write (v := .object (s.heap.allocate className fields).1) (g := f)
    (k := { s with heap := (s.heap.allocate className fields).2 }) htarget Heap.keeps_allocate
    (resolve_of_prepare (faultAt_eq_ok.1 hp))
  refine (errs_faultAt (hwrite.mono fun _ => .unevaluable)).bind fun ⟨g, s'⟩ _ => ?_
  dsimp only
  split
  · exact errs_ok
  · exact errs_ok

lemma errs_receiverOf {method : String} :
    Errs (Unevaluable h f refs) (receiverOf method v) := by
  unfold receiverOf
  split
  · exact errs_ordinary rfl
  · exact errs_ok
  · exact errs_ordinary rfl

lemma errs_callee {target : Option Loc} {receiver : Expr} {method : String} {r : ObjectRef}
    {given : Nat} (hv : eval s.heap f receiver = .ok (.object r)) :
    Errs (Cause c f s (.call line target receiver method args))
      (callee c.table r method given) := by
  unfold callee
  split
  · exact errs_error (.unevaluable (.ordinary rfl))
  · rename_i m hl
    split
    · split
      · exact errs_ok
      · exact errs_error (.unevaluable (.ordinary rfl))
    · rename_i hnot
      refine errs_error (.abstractMethod hv hl ?_)
      cases habstract : m.abstract with
      | true => exact .inl rfl
      | false => exact .inr (Option.eq_none_iff_forall_ne_some.2 fun b hb => hnot b habstract hb)

lemma errs_call {target : Option Loc} {receiver : Expr} {method : String} :
    Errs (Cause c f s (.call line target receiver method args))
      (call c f s line target receiver method args) := by
  have hreceiver : receiver.refs ⊆ (Stmt.call line target receiver method args).refs :=
    List.Subset.trans (List.subset_append_right _ _) (List.subset_append_left _ _)
  have hargs : args.flatMap Expr.refs ⊆ (Stmt.call line target receiver method args).refs :=
    List.subset_append_right _ _
  refine ((errs_eval_of_subset hreceiver).mono fun _ => .unevaluable).bind fun v hv => ?_
  refine (errs_receiverOf.mono fun _ => .unevaluable).bind fun r hr => ?_
  rw [receiverOf_eq_ok hr] at hv
  refine (errs_callee hv).bind fun _ _ => ?_
  exact ((errs_evalAll hargs).mono fun _ => .unevaluable).bind fun _ _ => errs_ok

lemma errs_giveBack {value : Option Expr} :
    Errs (Unevaluable s.heap f (.ret line value : Stmt).refs) (giveBack f s value) := by
  cases value with
  | none => exact errs_ok
  | some e => exact errs_eval.bind fun _ _ => errs_ok

lemma errs_assignAnswers {x : Except Lower.Misfit (Value × Heap)} :
    Errs (Unevaluable h f refs) (assignAnswers f s line target x) := by
  unfold assignAnswers
  split
  · exact errs_ok
  · exact errs_ordinary rfl

lemma errs_member {query : Expr} :
    Errs (Cause c f s (.member line target query)) (member c f s line target query) := by
  have htext : Errs (Unevaluable s.heap f (Stmt.member line target query).refs)
      (memberText c f s target query) :=
    (errs_resolve (List.subset_append_left _ _)).bind fun _ _ =>
      errs_evalString rfl (List.subset_append_right _ _)
  refine (htext.mono fun _ => .unevaluable).bind fun text _ => ?_
  refine Errs.bind ?_ fun _ _ => errs_assignAnswers.mono fun _ => .unevaluable
  cases hd : c.base.members s c.view text with
  | ok => exact errs_ok
  | error d => exact errs_error (.members hd)

lemma errs_parameterTexts {names : Lift.Namespaces} {prefixes : Rdf.Prefixes} {vs : List Value} :
    Errs (Unevaluable h f refs) (parameterTexts names prefixes vs) := by
  refine .mapM fun ⟨v, i⟩ _ => ?_
  dsimp only [parameterText]
  split
  · exact errs_ok
  · exact errs_ordinary rfl

lemma errs_accessText {query : Expr} {params : List Expr} :
    Errs (Unevaluable s.heap f (.access line target query params : Stmt).refs)
      (accessText c f s target query params) := by
  have hfirst : target.refs ++ query.refs ⊆ (Stmt.access line target query params).refs :=
    List.subset_append_left _ _
  have htarget := List.Subset.trans (List.subset_append_left _ _) hfirst
  have hquery := List.Subset.trans (List.subset_append_right _ _) hfirst
  refine (errs_resolve htarget).bind fun _ _ => ?_
  refine (errs_evalString rfl hquery).bind fun _ _ => ?_
  refine (errs_evalAll (List.subset_append_right _ _)).bind fun _ _ => ?_
  exact errs_parameterTexts.bind fun _ _ => errs_ok

lemma errs_access {query : Expr} {params : List Expr} :
    Errs (Halt.Of (Cause c f s (.access line target query params)))
      (access c f s line target query params) := by
  refine (errs_faultAt (errs_accessText.mono fun _ => .unevaluable)).bind fun text _ => ?_
  split
  · exact errs_faultAt (errs_assignAnswers.mono fun _ => .unevaluable)
  · rename_i d hd
    exact errs_error (.answers hd)
  · exact errs_error trivial

lemma errs_exec : Errs (Halt.Of (Cause c f s a.head)) (exec c f s a) := by
  have unevaluable {a : Stmt} {x : Except Fault Effect} (hx : Errs (Unevaluable s.heap f a.refs) x) :
      Errs (Halt.Of (Cause c f s a)) (faultAt s x) :=
    errs_faultAt (hx.mono fun _ => .unevaluable)
  induction a with
  | skip | breakpoint => exact errs_ok
  | assign => exact unevaluable errs_assign
  | seq line first rest ih _ => exact ih.bind fun _ _ => errs_ok
  | ifThen => exact unevaluable (errs_condition (fun _ => rfl) (List.subset_append_left _ _))
  | ifElse line condition body other =>
    have hcondition : condition.refs ⊆ (Stmt.ifElse line condition body other).refs :=
      List.Subset.trans (List.subset_append_left _ _) (List.subset_append_left _ _)
    exact unevaluable (errs_condition (fun _ => rfl) hcondition)
  | «while» => exact unevaluable (errs_condition (fun _ => rfl) (List.subset_append_left _ _))
  | create => exact errs_create
  | call => exact errs_faultAt errs_call
  | ret => exact unevaluable errs_giveBack
  | print => exact unevaluable (errs_eval.bind fun _ _ => errs_ok)
  | member => exact errs_faultAt errs_member
  | access => exact errs_access
  | store => exact errs_error trivial

/-- **Every fault of a statement has a cause** in the statement at its head. -/
theorem cause_of_exec (hx : exec c f s a = .error (.fault q left)) : Cause c f s a.head q :=
  errs_exec _ hx

end Semlift.Run
