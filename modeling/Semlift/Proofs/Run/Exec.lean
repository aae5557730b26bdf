import Semlift.Proofs.Lower.Lists
import Semlift.Proofs.Program.Accepted
import Semlift.Proofs.Run.Values
import Semlift.Run.Exec

/-!
One statement in a sound state. Whatever form it has, its effect is sound: the state and the frame
it leaves, the statement that is left over, a callee and a value given back name live objects only,
and no object goes away. If it fails with a fault, the state is the one it started from.
-/

namespace Semlift.Run

open Semlift.Lang Semlift.Program Semlift.Store

variable {p : Source} {t : ClassTable} {c : Context} {h : Heap} {f : Frame} {s left : State}
  {a b : Stmt} {e : Effect} {r : ObjectRef} {q : Fault} {v : Value} {line : Int} {target : Loc}

/-- What a frame goes on with names live objects only. -/
def Action.Sound (h : Heap) : Action → Prop
  | .proceed residual _ => ∀ a, residual = some a → h.Backs a
  | .spawn callee residual => callee.Sound h ∧ ∀ a, residual = some a → h.Backs a
  | .ret v => h.Supports v

structure Effect.Sound (t : ClassTable) (before : Heap) (e : Effect) : Prop where
  state : e.state.Sound t
  frame : e.frame.Sound e.state.heap
  keeps : before.Keeps e.state.heap
  action : e.action.Sound e.state.heap

/-! ### Faults -/

lemma faultAt_eq_ok {α : Type} {x : Except Fault α} {a : α} :
    faultAt s x = .ok a ↔ x = .ok a := by
  cases x <;> simp [faultAt]

lemma faultAt_eq_error {α : Type} {x : Except Fault α} {y : Halt} :
    faultAt s x = .error y ↔ ∃ q, x = .error q ∧ y = .fault q s := by
  cases x <;> simp [faultAt, eq_comm]

/-! ### Parts of statements -/

lemma backs_seq : h.Backs (.seq line a b) ↔ h.Backs a ∧ h.Backs b := by
  simp [Heap.Backs, Stmt.refs, or_imp, forall_and]

lemma backs_assign_lit :
    h.Backs (.assign line target (.lit v)) ↔ (∀ r ∈ target.refs, h.Alive r) ∧ h.Supports v := by
  simp only [Heap.Backs, Stmt.refs, Expr.refs, List.mem_append, or_imp, forall_and]
  refine and_congr_right fun _ => ?_
  cases v <;> simp [Heap.Supports, Value.object?]

/-! ### What a callee runs -/

lemma mem_methods_of_lookup? {className method : String} {m : MethodInfo}
    (hl : t.lookup? className method = some m) : ∃ d, m ∈ t.methods d := by
  obtain ⟨d, -, hd⟩ := List.exists_of_findSome?_eq_some hl
  exact ⟨d, List.mem_of_find?_eq_some hd⟩

/-- Bodies of the program mention no objects, so every heap backs them. -/
lemma backs_body {className method : String} {m : MethodInfo} (ht : t.Proper p)
    (hp : p.ObjectFree) (hl : t.lookup? className method = some m) (hb : m.body = some b) :
    h.Backs b := by
  obtain ⟨d, hm⟩ := mem_methods_of_lookup? hl
  exact fun r hr => absurd (Stmt.mem_refs.1 hr) (hp b (ht.bodies d m hm b hb) r)

lemma mem_bindParameters {params : List ParamDecl} {vs : List Value} {d : String × Value}
    (hd : d ∈ bindParameters params vs) : d.2 ∈ vs := by
  refine List.foldlRecOn (motive := fun fs : Fields => ∀ d ∈ fs, d.2 ∈ vs)
    (params.zip vs) (fun fs (x : ParamDecl × Value) => fs.assign x.1.name x.2) (b := [])
    (by simp) ?_ d hd
  rintro fs ih ⟨x, w⟩ hx d hd
  rcases Fields.mem_assign hd with rfl | hd
  · exact (List.of_mem_zip hx).2
  · exact ih d hd

/-! ### The forms of statements -/

lemma sound_done {before : Heap} {residual : Option Stmt} (hs : s.Sound t) (hf : f.Sound s.heap)
    (hk : before.Keeps s.heap) (hr : ∀ a, residual = some a → s.heap.Backs a) :
    (done f s residual).Sound t before :=
  ⟨hs, hf, hk, hr⟩

lemma sound_assign {value : Expr} (hs : s.Sound c.table) (hf : f.Sound s.heap)
    (ha : s.heap.Backs (.assign line target value)) (he : assign c f s target value = .ok e) :
    e.Sound c.table s.heap := by
  obtain ⟨htarget, hvalue⟩ := List.forall_mem_append.1 ha
  simp only [assign, bind_eq_ok, pure_eq_ok] at he
  obtain ⟨slot, hslot, v, hv, ⟨f', s'⟩, hw, rfl⟩ := he
  have hopen := open_resolve hs.heap hf htarget hslot
  obtain ⟨hs', hf', hk⟩ := sound_write hs hf hopen (supports_eval hs.heap hf hvalue hv) hw
  exact sound_done hs' hf' hk (by simp)

lemma sound_branch {condition : Expr} {body : Stmt} {other : Option Stmt} (hs : s.Sound t)
    (hf : f.Sound s.heap) (hb : s.heap.Backs body)
    (ho : ∀ a, other = some a → s.heap.Backs a)
    (he : branch f s condition body other = .ok e) : e.Sound t s.heap := by
  simp only [branch, bind_eq_ok, pure_eq_ok] at he
  obtain ⟨v, -, holds, -, rfl⟩ := he
  refine sound_done hs hf (Heap.Keeps.refl _) fun a ha => ?_
  split at ha
  · cases ha
    exact hb
  · exact ho a ha

lemma sound_loop {whole body : Stmt} {condition : Expr} (hs : s.Sound t) (hf : f.Sound s.heap)
    (hw : s.heap.Backs whole) (hb : s.heap.Backs body)
    (he : loop f s whole condition body = .ok e) : e.Sound t s.heap := by
  simp only [loop, bind_eq_ok, pure_eq_ok] at he
  obtain ⟨v, -, holds, -, rfl⟩ := he
  refine sound_done hs hf (Heap.Keeps.refl _) fun a ha => ?_
  split at ha
  · cases ha
    exact backs_seq.2 ⟨hb, hw⟩
  · simp at ha

lemma length_of_checkCreation {className : String} {n : Nat}
    (h : checkCreation t className n = .ok ()) : n = (t.fields className).length := by
  unfold checkCreation at h
  dsimp only at h
  split at h
  · simp at h
  · split at h
    · simp at h
    · split at h
      · simp at h
      · rename_i hn
        exact not_not.1 hn

/-- A new object gets a live value for each field of its class, in their order. -/
lemma sound_prepare {className : String} {args : List Expr} {slot : Slot} {fields : Fields}
    (ht : c.table.Proper p) (hs : s.Sound c.table) (hf : f.Sound s.heap)
    (ha : s.heap.Backs (.create line target className args))
    (h : prepare c f s target className args = .ok (slot, fields)) :
    slot.Open c.table s.heap ∧ (∀ d ∈ fields, s.heap.Supports d.2) ∧
      fields.map Prod.fst = (c.table.fields className).map (·.name) := by
  obtain ⟨htarget, hargs⟩ := List.forall_mem_append.1 ha
  simp only [prepare, bind_eq_ok, pure_eq_ok, Prod.mk.injEq] at h
  obtain ⟨⟨⟩, hcheck, slot', hslot, vs, hvs, rfl, rfl⟩ := h
  have hlen : vs.length = ((c.table.fields className).map (·.name)).length := by
    rw [length_evalAll hvs, length_of_checkCreation hcheck, List.length_map]
  have hnames : (((c.table.fields className).map (·.name)).zip vs).map Prod.fst =
      (c.table.fields className).map (·.name) := List.map_fst_zip (Nat.le_of_eq hlen.symm)
  rw [Fields.ofList_eq_self (by rw [hnames]; exact ht.fields className)]
  refine ⟨open_resolve hs.heap hf htarget hslot, fun d hd => ?_, hnames⟩
  exact supports_evalAll hs.heap hf hargs hvs d.2 (List.of_mem_zip hd).2

lemma sound_create {className : String} {args : List Expr} (ht : c.table.Proper p)
    (hp : p.ObjectFree) (hs : s.Sound c.table) (hf : f.Sound s.heap)
    (ha : s.heap.Backs (.create line target className args))
    (he : create c f s target className args = .ok e) : e.Sound c.table s.heap := by
  simp only [create, bind_eq_ok, faultAt_eq_ok] at he
  obtain ⟨⟨slot, fields⟩, hprep, ⟨f', s'⟩, hw, he⟩ := he
  obtain ⟨hopen, hfields, hnames⟩ := sound_prepare ht hs hf ha hprep
  have hk : s.heap.Keeps (s.heap.allocate className fields).2 := Heap.keeps_allocate
  have hnew := hs.withHeap (hs.heap.allocate hfields hnames) hk
  have hr : Heap.Alive _ (s.heap.allocate className fields).1 := hs.heap.keyed.alive_allocated
  obtain ⟨hs', hf', hk'⟩ :=
    sound_write hnew (hf.mono hk) (hopen.mono hk) (Heap.supports_object.2 hr) hw
  have hall := hk.trans hk'
  split at he
  · cases he
    exact sound_done hs' hf' hall (by simp)
  · rename_i body hbody
    cases he
    obtain ⟨m, hl, hb⟩ := Option.bind_eq_some_iff.1 hbody
    refine ⟨hs'.takeFrameId, hf', hall, ⟨hk' _ hr, by simp, fun a hact => ?_⟩, by simp⟩
    cases hact
    exact backs_body ht hp hl hb

lemma receiverOf_eq_ok {method : String} (h : receiverOf method v = .ok r) : v = .object r := by
  cases v <;> simp [receiverOf] at h
  rw [h]

lemma callee_eq_ok {method : String} {n : Nat} {m : MethodInfo}
    (h : callee t r method n = .ok (m, b)) :
    t.lookup? r.className method = some m ∧ m.body = some b := by
  unfold callee at h
  split at h
  · simp at h
  · rename_i d hl
    split at h
    · rename_i hb
      split at h
      · cases h
        exact ⟨hl, hb⟩
      · simp at h
    · simp at h

lemma sound_call {target : Option Loc} {receiver : Expr} {method : String} {args : List Expr}
    (ht : c.table.Proper p) (hp : p.ObjectFree) (hs : s.Sound c.table) (hf : f.Sound s.heap)
    (ha : s.heap.Backs (.call line target receiver method args))
    (he : call c f s line target receiver method args = .ok e) : e.Sound c.table s.heap := by
  obtain ⟨hfirst, hargs⟩ := List.forall_mem_append.1 ha
  obtain ⟨htarget, hreceiver⟩ := List.forall_mem_append.1 hfirst
  simp only [call, bind_eq_ok, pure_eq_ok] at he
  obtain ⟨v, hv, r, hr, ⟨m, body⟩, hm, vs, hvs, rfl⟩ := he
  obtain ⟨hl, hb⟩ := callee_eq_ok hm
  have hlive : s.heap.Alive r := by
    have hsup := supports_eval hs.heap hf hreceiver hv
    rw [receiverOf_eq_ok hr] at hsup
    exact Heap.supports_object.1 hsup
  refine ⟨hs.takeFrameId, hf, Heap.Keeps.refl _, ⟨hlive, fun d hd => ?_, fun a hact => ?_⟩, ?_⟩
  · exact supports_evalAll hs.heap hf hargs hvs d.2 (mem_bindParameters hd)
  · cases hact
    exact backs_body ht hp hl hb
  · rintro a ⟨⟩
    exact htarget

lemma sound_giveBack {value : Option Expr} (hs : s.Sound t) (hf : f.Sound s.heap)
    (ha : s.heap.Backs (.ret line value)) (he : giveBack f s value = .ok e) :
    e.Sound t s.heap := by
  cases value with
  | none =>
    cases he
    exact ⟨hs, hf, Heap.Keeps.refl _, Heap.supports_null⟩
  | some value =>
    simp only [giveBack, bind_eq_ok, pure_eq_ok] at he
    obtain ⟨v, hv, rfl⟩ := he
    exact ⟨hs, hf, Heap.Keeps.refl _, supports_eval hs.heap hf ha hv⟩

lemma sound_print {value : Expr} (hs : s.Sound t) (hf : f.Sound s.heap)
    (he : print f s value = .ok e) : e.Sound t s.heap := by
  simp only [print, bind_eq_ok, pure_eq_ok] at he
  obtain ⟨v, -, rfl⟩ := he
  exact ⟨hs, hf, Heap.Keeps.refl _, by simp [Action.Sound]⟩

/-- The list of the answers lives in what is left over, until it is assigned. -/
lemma sound_assignAnswers {prefixes : Rdf.Prefixes} {xs : List (Option Rdf.Term)}
    (ht : t.Proper p) (hs : s.Sound t) (hf : f.Sound s.heap)
    (hl : ∀ r ∈ target.refs, s.heap.Alive r)
    (he : assignAnswers f s line target (Lower.lowerTerms prefixes s.heap xs) = .ok e) :
    e.Sound t s.heap := by
  cases hx : Lower.lowerTerms prefixes s.heap xs with
  | error m => simp [hx, assignAnswers] at he
  | ok list =>
    obtain ⟨v, heap⟩ := list
    rw [hx] at he
    cases he
    obtain ⟨hheap, hk, hv⟩ := Lower.sound_lowerTerms ht.list hs.heap hx
    refine sound_done (hs.withHeap hheap hk) (hf.mono hk) hk ?_
    rintro a ⟨⟩
    exact backs_assign_lit.2 ⟨fun r hr => hk r (hl r hr), hv⟩

lemma sound_member {query : Expr} (ht : c.table.Proper p) (hs : s.Sound c.table)
    (hf : f.Sound s.heap) (ha : s.heap.Backs (.member line target query))
    (he : member c f s line target query = .ok e) : e.Sound c.table s.heap := by
  obtain ⟨htarget, -⟩ := List.forall_mem_append.1 ha
  simp only [member, bind_eq_ok] at he
  obtain ⟨text, -, members, -, he⟩ := he
  exact sound_assignAnswers ht hs hf htarget he

lemma sound_access {query : Expr} {params : List Expr} (ht : c.table.Proper p)
    (hs : s.Sound c.table) (hf : f.Sound s.heap)
    (ha : s.heap.Backs (.access line target query params))
    (he : access c f s line target query params = .ok e) : e.Sound c.table s.heap := by
  obtain ⟨hfirst, -⟩ := List.forall_mem_append.1 ha
  obtain ⟨htarget, -⟩ := List.forall_mem_append.1 hfirst
  simp only [access, bind_eq_ok, faultAt_eq_ok] at he
  obtain ⟨text, -, he⟩ := he
  split at he
  · exact sound_assignAnswers ht hs hf htarget (faultAt_eq_ok.1 he)
  · simp [throw, throwThe, MonadExceptOf.throw] at he
  · simp [throw, throwThe, MonadExceptOf.throw] at he

/-! ### Statements -/

lemma Action.Sound.followedBy {x : Action} (hx : x.Sound h) (hb : h.Backs b) :
    (x.followedBy b).Sound h := by
  have key : ∀ residual, (∀ a, residual = some a → h.Backs a) →
      ∀ a, Run.followedBy b residual = some a → h.Backs a := by
    intro residual hr a ha
    cases residual with
    | none =>
      cases ha
      exact hb
    | some d =>
      cases ha
      exact backs_seq.2 ⟨hr d rfl, hb⟩
  cases x with
  | proceed residual breakpoint => exact key residual hx
  | spawn callee residual => exact ⟨hx.1, key residual hx.2⟩
  | ret v => exact hx

/-- **Executing a statement is sound**, whatever form the statement has. -/
theorem sound_exec (ht : c.table.Proper p) (hp : p.ObjectFree) (hs : s.Sound c.table)
    (hf : f.Sound s.heap) (ha : s.heap.Backs a) (he : exec c f s a = .ok e) :
    e.Sound c.table s.heap := by
  induction a generalizing e with
  | skip line =>
    cases he
    exact sound_done hs hf (Heap.Keeps.refl _) (by simp)
  | assign line target value => exact sound_assign hs hf ha (faultAt_eq_ok.1 he)
  | seq line first rest ih _ =>
    simp only [exec, bind_eq_ok, pure_eq_ok] at he
    obtain ⟨d, hd, rfl⟩ := he
    obtain ⟨hfirst, hrest⟩ := backs_seq.1 ha
    have hsd := ih hfirst hd
    exact ⟨hsd.state, hsd.frame, hsd.keeps, hsd.action.followedBy (hrest.mono hsd.keeps)⟩
  | ifThen line condition body =>
    exact sound_branch hs hf (List.forall_mem_append.1 ha).2 (by simp) (faultAt_eq_ok.1 he)
  | ifElse line condition body other =>
    obtain ⟨hfirst, hother⟩ := List.forall_mem_append.1 ha
    refine sound_branch hs hf (List.forall_mem_append.1 hfirst).2 ?_ (faultAt_eq_ok.1 he)
    rintro a ⟨⟩
    exact hother
  | «while» line condition body =>
    exact sound_loop hs hf ha (List.forall_mem_append.1 ha).2 (faultAt_eq_ok.1 he)
  | create line target className args => exact sound_create ht hp hs hf ha he
  | call line target receiver method args =>
    exact sound_call ht hp hs hf ha (faultAt_eq_ok.1 he)
  | ret line value => exact sound_giveBack hs hf ha (faultAt_eq_ok.1 he)
  | print line value => exact sound_print hs hf (faultAt_eq_ok.1 he)
  | breakpoint line =>
    cases he
    exact ⟨hs, hf, Heap.Keeps.refl _, by simp [Action.Sound]⟩
  | member line target query => exact sound_member ht hs hf ha (faultAt_eq_ok.1 he)
  | access line target query params => exact sound_access ht hs hf ha he
  | store => simp [exec] at he

lemma left_of_create_fault {className : String} {args : List Expr} (ht : c.table.Proper p)
    (hs : s.Sound c.table) (hf : f.Sound s.heap)
    (ha : s.heap.Backs (.create line target className args))
    (he : create c f s target className args = .error (.fault q left)) : left = s := by
  simp only [create, bind_eq_error, faultAt_eq_ok, faultAt_eq_error, Halt.fault.injEq] at he
  rcases he with ⟨_, -, -, rfl⟩ | ⟨⟨slot, fields⟩, hprep, ⟨_, hw, -⟩ | ⟨_, -, he⟩⟩
  · rfl
  · -- the place is open, so the object that was just made can be written to it
    have hopen := (sound_prepare ht hs hf ha hprep).1
    obtain ⟨_, hok⟩ := Slot.Open.write_isOk (f := f)
      (s := { s with heap := (s.heap.allocate className fields).2 })
      (v := .object (s.heap.allocate className fields).1) (hopen.mono Heap.keeps_allocate)
    rw [hok] at hw
    simp at hw
  · split at he <;> simp [pure, Except.pure] at he

/-- **A fault changes nothing**: a statement that fails with one leaves the state it started from. -/
theorem left_of_exec_fault (ht : c.table.Proper p) (hs : s.Sound c.table) (hf : f.Sound s.heap)
    (ha : s.heap.Backs a) (he : exec c f s a = .error (.fault q left)) : left = s := by
  have key : ∀ {x : Except Fault Effect}, faultAt s x = .error (.fault q left) → left = s := by
    intro x hx
    obtain ⟨_, -, hq⟩ := faultAt_eq_error.1 hx
    cases hq
    rfl
  induction a with
  | seq line first rest ih _ =>
    simp only [exec, bind_eq_error, pure, Except.pure] at he
    rcases he with he | ⟨_, -, he⟩
    · exact ih (backs_seq.1 ha).1 he
    · simp at he
  | create line target className args => exact left_of_create_fault ht hs hf ha he
  | access line target query params =>
    simp only [exec, access, bind_eq_error, faultAt_eq_error, Halt.fault.injEq] at he
    rcases he with ⟨_, -, -, rfl⟩ | ⟨_, -, he⟩
    · rfl
    · split at he
      · exact key he
      · cases he
        rfl
      · cases he
  | skip | breakpoint | store => simp [exec] at he
  | assign | ifThen | ifElse | «while» | call | ret | print | member => exact key he

end Semlift.Run
