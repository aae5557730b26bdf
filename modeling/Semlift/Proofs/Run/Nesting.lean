import Semlift.Proofs.Knowledge.Nesting
import Semlift.Proofs.Knowledge.Reasoning
import Semlift.Proofs.Run.Collection
import Semlift.Proofs.Run.Spine

/-!
Running programs that differ in how sequences are nested. A statement and the same statement nested
to the right do the same, and leave over what differs in the nesting only; so does a value that is
given back. So two machines that differ in the nesting take the same steps, and nothing that can be
seen of them tells them apart.
-/

namespace Semlift

open Semlift.Lang Semlift.Program Semlift.Store

namespace Store

variable {f : Frame} {s : State}

def Frame.tidy (f : Frame) : Frame := { f with active := f.active.map Stmt.tidy }

/-- The state with all sequences nested to the right. -/
def State.tidy (s : State) : State := { s with stack := s.stack.map Frame.tidy }

lemma Frame.tidy_tidy : f.tidy.tidy = f.tidy := by
  simp only [tidy, Stmt.map_tidy_map_tidy]

lemma State.tidy_tidy : s.tidy.tidy = s.tidy := by
  simp only [tidy, List.map_map, Function.comp_def, Frame.tidy_tidy]

/-- The listing of a state does not show how sequences are nested. -/
lemma State.text_tidy : s.tidy.text = s.text := by
  have hframe (f : Frame) : State.frameText f.tidy = State.frameText f := by
    obtain ⟨active, locals, owner, id, returnsValue⟩ := f
    cases active with
    | none => rfl
    | some a => simp only [frameText, Frame.tidy, Option.map_some, Stmt.text_tidy]
  simp only [text, tidy, List.map_map, Function.comp_def, hframe]

/-- Nor does a collection see it. -/
lemma State.collect_tidy : s.tidy.collect = (s.collect.1, s.collect.2.tidy) := by
  have hframe (f : Frame) : f.tidy.roots = f.roots := by
    obtain ⟨active, locals, owner, id, returnsValue⟩ := f
    cases active with
    | none => rfl
    | some a => simp only [Frame.roots, Frame.tidy, Option.map_some, Stmt.refs_tidy]
  have hroots : s.tidy.roots = s.roots := by
    simp only [roots, tidy, List.flatMap_map, hframe]
  have hgarbage : s.tidy.garbage = s.garbage := by
    simp only [garbage, marked, hroots]
    rfl
  simp only [collect, hgarbage]
  rfl

end Store

namespace Run

variable {c : Context} {f : Frame} {s : State} {a b : Stmt} {e e' : Effect} {v : Value}
  {l l' : List Stmt} {r : Option Stmt} {x x' : Except Halt Effect} {h : Heap} {t : ClassTable}
  {target : Loc}

/-! ### One form of what a statement does -/

def Context.tidy (c : Context) : Context := ⟨c.table.tidy, c.base.tidy, c.view⟩

def Action.tidy : Action → Action
  | .proceed residual breakpoint => .proceed (residual.map Stmt.tidy) breakpoint
  | .spawn callee residual => .spawn callee.tidy (residual.map Stmt.tidy)
  | .ret v => .ret v

def Effect.tidy (e : Effect) : Effect := ⟨e.frame.tidy, e.state.tidy, e.printed, e.action.tidy⟩

def Halt.tidy : Halt → Halt
  | .fault q left => .fault q left.tidy
  | .failure x => .failure x

/-- The result of a statement with all sequences nested to the right. -/
def tidied : Except Halt Effect → Except Halt Effect
  | .ok e => .ok e.tidy
  | .error y => .error y.tidy

lemma Action.tidy_tidy {y : Action} : y.tidy.tidy = y.tidy := by
  cases y <;> simp only [tidy, Stmt.map_tidy_map_tidy, Frame.tidy_tidy]

lemma Effect.tidy_tidy : e.tidy.tidy = e.tidy := by
  simp only [tidy, Frame.tidy_tidy, State.tidy_tidy, Action.tidy_tidy]

lemma tidied_tidied : tidied (tidied x) = tidied x := by
  rcases x with (_ | _) | e
  · simp only [tidied, Halt.tidy, State.tidy_tidy]
  · rfl
  · simp only [tidied, Effect.tidy_tidy]

lemma tidied_faultAt {y : Except Fault Effect} :
    tidied (faultAt s y) = faultAt s.tidy (y.map Effect.tidy) := by
  cases y <;> rfl

lemma Effect.map_tidy_map_tidy {y : Except Fault Effect} :
    (y.map Effect.tidy).map Effect.tidy = y.map Effect.tidy := by
  cases y with
  | error q => rfl
  | ok e => simp only [Except.map, Effect.tidy_tidy]

lemma alike_of_tidied (hx : tidied x' = tidied x) :
    Alike (fun y' y => y'.tidy = y.tidy) (fun e' e => e'.tidy = e.tidy) x' x := by
  cases x' <;> cases x
  · exact .error (Except.error.inj hx)
  · exact nomatch hx
  · exact nomatch hx
  · exact .ok (Except.ok.inj hx)

/-! ### Values and places -/

lemma eval_tidy {e : Expr} : eval h f.tidy e = eval h f e := by
  induction e with
  | lit | var | own | this => rfl
  | field e field ih => rw [eval, eval, ih]
  | unary op e ih => rw [eval, eval, ih]
  | binary op a b iha ihb => cases op <;> simp only [eval, iha, ihb]

lemma evalAll_tidy {es : List Expr} : evalAll h f.tidy es = evalAll h f es :=
  mapM_congr fun _ _ => eval_tidy

lemma evalString_tidy {what : String} {e : Expr} :
    evalString h f.tidy what e = evalString h f what e := by
  simp only [evalString, eval_tidy]

lemma resolve_tidy : resolve t.tidy h f.tidy target = resolve t h f target := by
  have hslot (field : String) (v : Value) : fieldSlot t.tidy field v = fieldSlot t field v := by
    cases v <;> simp only [fieldSlot, ClassTable.field?_tidy]
  cases target with
  | var name => rfl
  | own field => exact hslot field (.object f.owner)
  | field e field => simp only [resolve, eval_tidy, hslot]

lemma write_tidy {slot : Slot} : slot.write v f.tidy s.tidy =
    (slot.write v f s).map fun x => (x.1.tidy, x.2.tidy) := by
  cases slot with
  | «variable» name => rfl
  | field r name =>
    have hheap : s.tidy.heap = s.heap := rfl
    simp only [Slot.write, hheap]
    split <;> rfl

/-! ### Statements -/

lemma assign_tidy {value : Expr} : assign c.tidy f.tidy s.tidy target value =
    (assign c f s target value).map Effect.tidy := by
  have hresolve : resolve c.tidy.table s.tidy.heap f.tidy target =
      resolve c.table s.heap f target := resolve_tidy
  have heval : eval s.tidy.heap f.tidy value = eval s.heap f value := eval_tidy
  simp only [assign, hresolve, heval]
  cases resolve c.table s.heap f target with
  | error q => rfl
  | ok slot =>
    cases eval s.heap f value with
    | error q => rfl
    | ok v =>
      simp only [bind, Except.bind, write_tidy]
      cases slot.write v f s <;> rfl

lemma branch_tidy {condition : Expr} :
    branch f.tidy s.tidy condition b.tidy (r.map Stmt.tidy) =
      (branch f s condition b r).map Effect.tidy := by
  have heval : eval s.tidy.heap f.tidy condition = eval s.heap f condition := eval_tidy
  simp only [branch, heval]
  cases eval s.heap f condition with
  | error q => rfl
  | ok v =>
    simp only [bind, Except.bind]
    cases truth .badCondition v with
    | error q => rfl
    | ok holds => cases holds <;> rfl

/-- A loop is not nested to the right with its body before it. -/
lemma loop_tidy (condition : Expr) :
    (loop f.tidy s.tidy a.tidy condition b.tidy).map Effect.tidy =
      (loop f s a condition b).map Effect.tidy := by
  have heval : eval s.tidy.heap f.tidy condition = eval s.heap f condition := eval_tidy
  have hseq : (Stmt.seq (-1) b.tidy a.tidy).tidy = (Stmt.seq (-1) b a).tidy := by
    rw [Stmt.tidy_eq_iff, Stmt.row, Stmt.row_tidy, Stmt.row_tidy, Stmt.row]
  simp only [loop, heval]
  cases eval s.heap f condition with
  | error q => rfl
  | ok v =>
    simp only [bind, Except.bind]
    cases truth .badLoopCondition v with
    | error q => rfl
    | ok holds =>
      cases holds with
      | false =>
        simp only [Except.map, pure, Except.pure, done, Effect.tidy, Frame.tidy_tidy,
          State.tidy_tidy]
        rfl
      | true =>
        simp only [Except.map, pure, Except.pure, done, Effect.tidy, Frame.tidy_tidy,
          State.tidy_tidy, Action.tidy, if_true, Option.map_some, hseq]

lemma prepare_tidy {className : String} {args : List Expr} :
    prepare c.tidy f.tidy s.tidy target className args = prepare c f s target className args := by
  have hcheck : checkCreation c.tidy.table className = checkCreation c.table className := by
    funext given
    simp only [checkCreation, Context.tidy, ClassTable.has_tidy, ClassTable.isAbstract_tidy,
      ClassTable.fields_tidy, ClassTable.lookup?_tidy]
    cases c.table.lookup? className constructorName <;> rfl
  have hresolve : resolve c.tidy.table s.tidy.heap f.tidy target =
      resolve c.table s.heap f target := resolve_tidy
  have hargs : evalAll s.tidy.heap f.tidy args = evalAll s.heap f args := evalAll_tidy
  have hfields : c.tidy.table.fields className = c.table.fields className :=
    ClassTable.fields_tidy
  simp only [prepare, hcheck, hresolve, hargs, hfields]

lemma create_tidy {className : String} {args : List Expr} :
    create c.tidy f.tidy s.tidy target className args =
      tidied (create c f s target className args) := by
  have hbody : constructorBody? c.tidy.table className =
      (constructorBody? c.table className).map Stmt.tidy := by
    simp only [constructorBody?, Context.tidy, ClassTable.lookup?_tidy]
    cases c.table.lookup? className constructorName <;> rfl
  have hheap : s.tidy.heap = s.heap := rfl
  simp only [create, prepare_tidy, hbody, hheap]
  cases prepare c f s target className args with
  | error q => rfl
  | ok x =>
    obtain ⟨slot, fields⟩ := x
    have hstate : { s.tidy with heap := (s.heap.allocate className fields).2 } =
      State.tidy { s with heap := (s.heap.allocate className fields).2 } := rfl
    simp only [faultAt, bind, Except.bind, hstate, write_tidy]
    generalize slot.write _ f _ = w
    rcases w with q | ⟨f', s'⟩
    · rfl
    · cases constructorBody? c.table className <;> rfl

lemma callee_tidy {r : ObjectRef} {method : String} {given : Nat} :
    callee t.tidy r method given =
      (callee t r method given).map fun x => (x.1.tidy, x.2.tidy) := by
  simp only [callee, ClassTable.lookup?_tidy]
  cases t.lookup? r.className method with
  | none => rfl
  | some m =>
    obtain ⟨name, params, returnType, body, abstract, declaring⟩ := m
    cases abstract <;> cases body <;> try rfl
    simp only [Option.map_some, MethodInfo.tidy]
    split <;> rfl

lemma call_tidy {line : Int} {target : Option Loc} {receiver : Expr} {method : String}
    {args : List Expr} : call c.tidy f.tidy s.tidy line target receiver method args =
      (call c f s line target receiver method args).map Effect.tidy := by
  have heval : eval s.tidy.heap f.tidy receiver = eval s.heap f receiver := eval_tidy
  have hargs : evalAll s.tidy.heap f.tidy args = evalAll s.heap f args := evalAll_tidy
  have hcallee (r : ObjectRef) : callee c.tidy.table r method args.length =
      (callee c.table r method args.length).map fun x => (x.1.tidy, x.2.tidy) := callee_tidy
  simp only [call, heval, hargs, hcallee]
  cases eval s.heap f receiver with
  | error q => rfl
  | ok v =>
    simp only [bind, Except.bind]
    cases receiverOf method v with
    | error q => rfl
    | ok r =>
      dsimp only
      cases callee c.table r method args.length with
      | error q => rfl
      | ok x => cases evalAll s.heap f args <;> rfl

lemma giveBack_tidy {value : Option Expr} :
    giveBack f.tidy s.tidy value = (giveBack f s value).map Effect.tidy := by
  cases value with
  | none => rfl
  | some value =>
    have heval : eval s.tidy.heap f.tidy value = eval s.heap f value := eval_tidy
    simp only [giveBack, heval]
    cases eval s.heap f value <;> rfl

lemma print_tidy {value : Expr} :
    print f.tidy s.tidy value = (print f s value).map Effect.tidy := by
  have heval : eval s.tidy.heap f.tidy value = eval s.heap f value := eval_tidy
  simp only [print, heval]
  cases eval s.heap f value <;> rfl

lemma assignAnswers_tidy {line : Int} {y : Except Lower.Misfit (Value × Heap)} :
    assignAnswers f.tidy s.tidy line target y =
      (assignAnswers f s line target y).map Effect.tidy := by
  rcases y with q | ⟨v, heap⟩ <;> rfl

lemma memberText_tidy {query : Expr} :
    memberText c.tidy f.tidy s.tidy target query = memberText c f s target query := by
  have hresolve : resolve c.tidy.table s.tidy.heap f.tidy target =
      resolve c.table s.heap f target := resolve_tidy
  have heval : evalString s.tidy.heap f.tidy "member query" query =
      evalString s.heap f "member query" query := evalString_tidy
  simp only [memberText, hresolve, heval]

lemma member_tidy {line : Int} {query : Expr} :
    member c.tidy f.tidy s.tidy line target query =
      (member c f s line target query).map Effect.tidy := by
  have hmembers (text : String) : c.tidy.base.members s.tidy c.view text =
      c.base.members s c.view text := Knowledge.Base.members_tidy (s := s.tidy)
  have hprefixes : c.tidy.base.prefixes = c.base.prefixes := rfl
  have hview : c.tidy.view = c.view := rfl
  have hheap : s.tidy.heap = s.heap := rfl
  simp only [member, memberText_tidy, hview, hmembers, hprefixes, hheap, assignAnswers_tidy]
  cases memberText c f s target query with
  | error q => rfl
  | ok text =>
    simp only [bind, Except.bind]
    cases answered (c.base.members s c.view text) <;> rfl

lemma access_tidy {line : Int} {query : Expr} {params : List Expr} :
    access c.tidy f.tidy s.tidy line target query params =
      tidied (access c f s line target query params) := by
  have htext : accessText c.tidy f.tidy s.tidy target query params =
      accessText c f s target query params := by
    have hresolve : resolve c.tidy.table s.tidy.heap f.tidy target =
        resolve c.table s.heap f target := resolve_tidy
    have heval : evalString s.tidy.heap f.tidy "access query" query =
        evalString s.heap f "access query" query := evalString_tidy
    have hargs : evalAll s.tidy.heap f.tidy params = evalAll s.heap f params := evalAll_tidy
    simp only [accessText, hresolve, heval, hargs]
    rfl
  have hquery (text : String) : c.tidy.base.query s.tidy c.view text =
      c.base.query s c.view text := Knowledge.Base.query_tidy (s := s.tidy)
  have hprefixes : c.tidy.base.prefixes = c.base.prefixes := rfl
  have hview : c.tidy.view = c.view := rfl
  have hheap : s.tidy.heap = s.heap := rfl
  simp only [access, htext, hview, hquery, hprefixes, hheap, assignAnswers_tidy]
  cases accessText c f s target query params with
  | error q => rfl
  | ok text =>
    simp only [faultAt, bind, Except.bind]
    cases c.base.query s c.view text with
    | ok answer => exact tidied_faultAt.symm
    | error x => cases x <;> rfl

/-- The statement that a frame executes next does the same, whatever follows it. -/
lemma tidied_exec_head :
    tidied (exec c.tidy f.tidy s.tidy a.head.tidy) = tidied (exec c f s a.head) := by
  -- what holds of the effects of a primitive statement holds of its result
  have hfault {y y' : Except Fault Effect} (hy : y' = y.map Effect.tidy) :
      tidied (faultAt s.tidy y') = tidied (faultAt s y) := by
    rw [tidied_faultAt, tidied_faultAt, hy, Effect.map_tidy_map_tidy, State.tidy_tidy]
  have hresult {y y' : Except Halt Effect} (hy : y' = tidied y) : tidied y' = tidied y := by
    rw [hy, tidied_tidied]
  induction a with
  | seq line first rest ih _ => exact ih
  | skip | breakpoint | store => exact hresult rfl
  | assign line target value => exact hfault assign_tidy
  | ifThen line condition body => exact hfault (branch_tidy (r := none))
  | ifElse line condition body other => exact hfault (branch_tidy (r := some other))
  | «while» line condition body =>
    have hloop :=
      loop_tidy (f := f) (s := s) (a := .while line condition body) (b := body) condition
    simp only [Stmt.head, Stmt.tidy_while, exec]
    rw [tidied_faultAt, tidied_faultAt, ← Stmt.tidy_while, hloop, State.tidy_tidy]
  | create line target className args => exact hresult create_tidy
  | call line target receiver method args => exact hfault call_tidy
  | ret line value => exact hfault giveBack_tidy
  | print line value => exact hfault print_tidy
  | member line target query => exact hfault member_tidy
  | access line target query params => exact hresult access_tidy

/-! ### What is left over -/

/-- The row of what is left over; nothing is left of an empty one. -/
def rowOf (r : Option Stmt) : List Stmt := (r.map Stmt.row).getD []

lemma map_tidy_eq_iff {r' : Option Stmt} :
    r.map Stmt.tidy = r'.map Stmt.tidy ↔ rowOf r = rowOf r' := by
  cases r with
  | none =>
    cases r' with
    | none => exact iff_of_true rfl rfl
    | some b => exact ⟨fun h => (nomatch h), fun h => absurd h.symm Stmt.row_ne_nil⟩
  | some a =>
    cases r' with
    | none => exact ⟨fun h => (nomatch h), fun h => absurd h Stmt.row_ne_nil⟩
    | some b => exact Option.some_inj.trans Stmt.tidy_eq_iff

lemma rowOf_followedByAll : rowOf (followedByAll l r) = rowOf r ++ l.flatMap Stmt.row := by
  cases r with
  | some a => rw [followedByAll_some]; exact Stmt.row_andThen
  | none =>
    cases l with
    | nil => rfl
    | cons a l => rw [followedByAll_none]; exact Stmt.row_andThen

lemma map_tidy_followedByAll (hl : l'.flatMap Stmt.row = l.flatMap Stmt.row) :
    (followedByAll l' (r.map Stmt.tidy)).map Stmt.tidy = (followedByAll l r).map Stmt.tidy := by
  have hr : rowOf (r.map Stmt.tidy) = rowOf r := map_tidy_eq_iff.1 Stmt.map_tidy_map_tidy
  rw [map_tidy_eq_iff, rowOf_followedByAll, rowOf_followedByAll, hr, hl]

lemma Action.tidy_followedByAll {y : Action} (hl : l'.flatMap Stmt.row = l.flatMap Stmt.row) :
    (y.tidy.followedByAll l').tidy = (y.followedByAll l).tidy := by
  cases y <;> simp only [tidy, followedByAll, map_tidy_followedByAll hl, Frame.tidy_tidy]

lemma tidied_followedByAll (hl : l'.flatMap Stmt.row = l.flatMap Stmt.row)
    (hx : tidied x' = tidied x) :
    tidied (x'.map (Effect.followedByAll l')) = tidied (x.map (Effect.followedByAll l)) := by
  have key {x : Except Halt Effect} {l : List Stmt}
      (hl : l'.flatMap Stmt.row = l.flatMap Stmt.row) :
      tidied ((tidied x).map (Effect.followedByAll l')) =
        tidied (x.map (Effect.followedByAll l)) := by
    rcases x with (_ | _) | e
    · simp only [tidied, Except.map, Halt.tidy, State.tidy_tidy]
    · rfl
    · simp only [tidied, Except.map, Effect.followedByAll, Effect.tidy, Frame.tidy_tidy,
        State.tidy_tidy, Action.tidy_followedByAll hl]
  rw [← key rfl, hx, key hl]

/-- **A statement and the same statement nested to the right** do the same. -/
theorem tidied_exec : tidied (exec c.tidy f.tidy s.tidy a.tidy) = tidied (exec c f s a) := by
  have hhead : tidied (exec c.tidy f.tidy s.tidy a.tidy.head) = tidied (exec c f s a.head) := by
    rw [Stmt.head_tidy]
    exact tidied_exec_head
  have htidy : exec c.tidy f.tidy s.tidy a.tidy = _ := exec_eq_head
  have hself : exec c f s a = _ := exec_eq_head
  rw [htidy, hself]
  exact tidied_followedByAll Stmt.flatMap_rests_tidy hhead

/-- What is known afterwards is the same. -/
lemma knowledgeAfter_tidy : knowledgeAfter c.tidy f.tidy s.tidy a.tidy =
    (knowledgeAfter c f s a).tidy := by
  have hspine {c : Context} {f : Frame} {s : State} (a : Stmt) :
      knowledgeAfter c f s a = knowledgeAfter c f s a.head := by
    induction a with
    | seq line first rest ih _ => exact ih
    | _ => rfl
  rw [hspine, Stmt.head_tidy, hspine a]
  induction a with
  | seq line first rest ih _ => exact ih
  | member line target query =>
    have hview : c.tidy.view = c.view := rfl
    have hafter (text : String) : c.tidy.base.afterMembers s.tidy c.view text =
        (c.base.afterMembers s c.view text).tidy := Knowledge.Base.afterMembers_tidy (s := s.tidy)
    simp only [Stmt.head, Stmt.tidy, Stmt.row, Stmt.block, knowledgeAfter, memberText_tidy, hview,
      hafter]
    cases memberText c f s target query <;> rfl
  | _ => rfl

/-! ### Frames that end and go on -/

lemma resume_tidy : (resume v a.tidy).map Stmt.tidy = (resume v a).map Stmt.tidy := by
  have hhead : resume v a.head.tidy = resume v a.head := by
    induction a with
    | seq line first rest ih _ => exact ih
    | _ => rfl
  have htidy : resume v a.tidy = _ := resume_eq_head
  have hself : resume v a = _ := resume_eq_head
  rw [htidy, hself, Stmt.head_tidy, hhead, Option.map_map, Option.map_map]
  refine Option.map_congr fun b _ => ?_
  simp only [Function.comp_apply]
  rw [Stmt.tidy_eq_iff, Stmt.row_andThen, Stmt.row_andThen, Stmt.flatMap_rests_tidy]

lemma finish_tidy : (finish f.tidy v s.tidy).map State.tidy = (finish f v s).map State.tidy := by
  obtain ⟨stack, heap, simulation, root, nextFrame⟩ := s
  have hgives : f.tidy.returnsValue = f.returnsValue := rfl
  unfold finish
  rw [hgives]
  cases f.returnsValue with
  | false => exact congrArg Except.ok State.tidy_tidy
  | true =>
    cases stack with
    | nil => rfl
    | cons caller below =>
      obtain ⟨active, locals, owner, id, returnsValue⟩ := caller
      cases active with
      | none => rfl
      | some a =>
        have hresume := resume_tidy (v := v) (a := a)
        have hbelow : (below.map Frame.tidy).map Frame.tidy = below.map Frame.tidy := by
          rw [List.map_map]
          exact List.map_congr_left fun _ _ => Frame.tidy_tidy
        simp only [State.tidy, List.map_cons, Frame.tidy, Option.map_some]
        generalize resume v a.tidy = x' at hresume ⊢
        generalize resume v a = x at hresume ⊢
        cases x with
        | none =>
          obtain rfl : x' = none := Option.map_eq_none_iff.1 hresume
          rfl
        | some b =>
          obtain ⟨b', rfl, hb⟩ := Option.map_eq_some_iff.1 hresume
          simp only [Except.map, State.tidy, List.map_cons, hbelow, Frame.tidy, Option.map_some, hb]

lemma commit_tidy : e.tidy.commit.map State.tidy = e.commit.map State.tidy := by
  obtain ⟨f, s, printed, y⟩ := e
  have hstack : (s.stack.map Frame.tidy).map Frame.tidy = s.stack.map Frame.tidy :=
    congrArg State.stack (State.tidy_tidy (s := s))
  rcases y with ⟨_ | b, breakpoint⟩ | ⟨callee, r⟩ | v
  · exact finish_tidy
  · simp only [Effect.commit, Effect.tidy, Action.tidy, Option.map_some, Except.map, State.push,
      State.tidy, Frame.tidy, List.map_cons, hstack, Stmt.tidy_tidy]
  · simp only [Effect.commit, Effect.tidy, Action.tidy, Except.map, State.push, State.tidy,
      List.map_cons, hstack, Frame.tidy_tidy]
    simp only [Frame.tidy, Stmt.map_tidy_map_tidy]
  · exact finish_tidy

lemma commit_of_tidy_eq (he : e'.tidy = e.tidy) :
    e'.commit.map State.tidy = e.commit.map State.tidy := by
  rw [← commit_tidy, he, commit_tidy]

lemma breakpoint_tidy : e.tidy.breakpoint = e.breakpoint := by
  obtain ⟨f, s, printed, y⟩ := e
  cases y <;> rfl

namespace Machine

variable {m n : Machine} {breakpoint : Bool}

/-! ### Steps -/

/-- The machine with all sequences of its program nested to the right. -/
def tidy (m : Machine) : Machine :=
  { m with table := m.table.tidy, base := m.base.tidy, state := m.state.tidy }

lemma tidy_tidy : m.tidy.tidy = m.tidy := by
  simp only [tidy, ClassTable.tidy_tidy, Knowledge.Base.tidy_tidy, State.tidy_tidy]

/-- The result of a step with all sequences nested to the right. -/
def tidiedStep (r : Except Failure Outcome × Machine) : Except Failure Outcome × Machine :=
  (r.1, r.2.tidy)

lemma collectIfDue_tidy : m.tidy.collectIfDue = m.collectIfDue.tidy := by
  have hcollect : m.tidy.collect.2 = m.collect.2.tidy := by
    have hstate : m.tidy.state.collect = (m.state.collect.1, m.state.collect.2.tidy) :=
      State.collect_tidy
    simp only [collect, hstate]
    rfl
  change (if m.gcInterval ≠ 0 ∧ m.steps % m.gcInterval = 0 then m.tidy.collect.2 else m.tidy) =
    tidy (if m.gcInterval ≠ 0 ∧ m.steps % m.gcInterval = 0 then m.collect.2 else m)
  split
  · exact hcollect
  · rfl

lemma settled_tidy {s' : State} (hm : m.tidy = n.tidy) (hs : s.tidy = s'.tidy) :
    tidiedStep (m.settled s breakpoint) = tidiedStep (n.settled s' breakpoint) := by
  have key (m : Machine) (s : State) : m.tidy.settled s.tidy breakpoint =
      tidiedStep (m.settled s breakpoint) := by
    have hcollect := collectIfDue_tidy (m := { m with state := s })
    have hdone (m : Machine) : m.tidy.isDone = m.isDone := List.isEmpty_map
    have hsettled : m.tidy.settled s.tidy breakpoint =
        (.ok ⟨!{ m with state := s }.collectIfDue.tidy.isDone, breakpoint⟩,
          { m with state := s }.collectIfDue.tidy) := by
      rw [← hcollect]
      rfl
    rw [hsettled, hdone]
    rfl
  rw [← key, ← key, hm, hs]

lemma stepFinished_tidy : tidiedStep (m.tidy.stepFinished f.tidy s.tidy) =
    tidiedStep (m.stepFinished f s) := by
  have hfinish := finish_tidy (f := f) (v := .null) (s := s)
  unfold stepFinished
  generalize finish f.tidy .null s.tidy = x' at hfinish ⊢
  generalize finish f .null s = x at hfinish ⊢
  cases x with
  | error y =>
    cases x' with
    | error y' =>
      cases hfinish
      exact Prod.ext rfl (tidy_tidy (m := { m with state := s }))
    | ok => cases hfinish
  | ok s' =>
    obtain ⟨s'', rfl, hs⟩ := map_eq_ok.1 hfinish
    exact settled_tidy (tidy_tidy (m := { m with steps := m.steps + 1 })) hs

lemma stepActive_tidy : tidiedStep (m.tidy.stepActive f.tidy s.tidy a.tidy) =
    tidiedStep (m.stepActive f s a) := by
  have hexec := tidied_exec (c := m.context) (f := f) (s := s) (a := a)
  have hcontext : m.tidy.context = m.context.tidy := rfl
  unfold stepActive
  rw [hcontext, knowledgeAfter_tidy, Stmt.headSpan_tidy]
  generalize exec m.context.tidy f.tidy s.tidy a.tidy = x' at hexec ⊢
  generalize exec m.context f s a = x at hexec ⊢
  generalize knowledgeAfter m.context f s a = base
  -- whatever a step leaves, the parts that the nesting can show in agree in their form
  have hmachine {s₁ s₂ : State} {steps : Nat} {printed : String} (hs : s₁.tidy = s₂.tidy) :
      tidy ⟨m.table.tidy, base.tidy, m.view, m.gcInterval, s₁, steps, printed⟩ =
        tidy ⟨m.table, base, m.view, m.gcInterval, s₂, steps, printed⟩ := by
    simp only [tidy, ClassTable.tidy_tidy, Knowledge.Base.tidy_tidy, hs]
  cases alike_of_tidied hexec with
  | @error y' y hy =>
    cases y with
    | fault q left =>
      cases y' with
      | failure => cases hy
      | fault q' left' =>
        obtain ⟨rfl, hleft⟩ := Halt.fault.inj hy
        have hpush : (left'.push f.tidy).tidy = (left.push f).tidy := by
          have hstack := congrArg State.stack hleft
          simp only [State.tidy, State.mk.injEq] at hleft
          simp only [State.tidy, State.push, List.map_cons, Frame.tidy_tidy, hleft]
        exact Prod.ext rfl (hmachine hpush)
    | failure y =>
      cases y' with
      | fault => cases hy
      | failure =>
        cases hy
        exact Prod.ext rfl (hmachine State.tidy_tidy)
  | @ok e' e he =>
    have hprinted : e'.printed = e.printed := show e'.tidy.printed = e.tidy.printed by rw [he]
    have hbreakpoint : e'.breakpoint = e.breakpoint := by
      rw [← breakpoint_tidy, he, breakpoint_tidy]
    have hcommit := commit_of_tidy_eq he
    dsimp only
    rw [hprinted, hbreakpoint]
    generalize e'.commit = z' at hcommit ⊢
    generalize e.commit = z at hcommit ⊢
    cases z with
    | error y =>
      cases z' with
      | ok => cases hcommit
      | error y' =>
        cases hcommit
        exact Prod.ext rfl (hmachine (congrArg Effect.state he))
    | ok s' =>
      obtain ⟨s'', rfl, hs⟩ := map_eq_ok.1 hcommit
      exact settled_tidy (hmachine State.tidy_tidy) hs

/-- **A step is the same** with all sequences nested to the right. -/
theorem step_tidy : tidiedStep m.tidy.step = tidiedStep m.step := by
  unfold step
  cases hstack : m.state.stack with
  | nil =>
    have htidy : m.tidy.state.stack = [] := congrArg (List.map Frame.tidy) hstack
    simp only [htidy]
    exact Prod.ext rfl tidy_tidy
  | cons f below =>
    have htidy : m.tidy.state.stack = f.tidy :: below.map Frame.tidy :=
      congrArg (List.map Frame.tidy) hstack
    have hstate : { m.tidy.state with stack := below.map Frame.tidy } =
        State.tidy { m.state with stack := below } := rfl
    simp only [htidy, hstate]
    cases hactive : f.active with
    | none =>
      have hnone : f.tidy.active = none := congrArg (Option.map Stmt.tidy) hactive
      simp only [hnone]
      exact stepFinished_tidy
    | some a =>
      have hsome : f.tidy.active = some a.tidy := congrArg (Option.map Stmt.tidy) hactive
      simp only [hsome]
      exact stepActive_tidy

/-! ### Runs -/

/-- The machines do the same in the next step, and show the same before it: what was printed, the
listing of the state and the heap. -/
structure Resembles (m n : Machine) : Prop where
  outcome : m.step.1 = n.step.1
  printed : m.printed = n.printed
  text : m.state.text = n.state.text
  heap : m.state.heap = n.state.heap

lemma after_of_tidy_eq {k : Nat} (hmn : m.tidy = n.tidy) : (m.after k).tidy = (n.after k).tidy := by
  induction k with
  | zero => exact hmn
  | succ k ih =>
    have hstep : tidiedStep (m.after k).step = tidiedStep (n.after k).step := by
      rw [← step_tidy, ih, step_tidy]
    exact congrArg Prod.snd hstep

lemma resembles_of_tidy_eq (hmn : m.tidy = n.tidy) : m.Resembles n := by
  have hstep : tidiedStep m.step = tidiedStep n.step := by rw [← step_tidy, hmn, step_tidy]
  have hstate : m.state.tidy = n.state.tidy := congrArg Machine.state hmn
  refine ⟨?_, ?_, ?_, ?_⟩
  · show (tidiedStep m.step).1 = (tidiedStep n.step).1
    rw [hstep]
  · show m.tidy.printed = n.tidy.printed
    rw [hmn]
  · rw [← State.text_tidy, hstate, State.text_tidy]
  · show m.state.tidy.heap = n.state.tidy.heap
    rw [hstate]

variable {p q : Source} {t u : ClassTable} {settings : Config.Settings} {tree : Files.Tree}
  {b : Knowledge.Base} {hasOutput : Bool} {w : Knowledge.View} {i : Nat}

lemma start_some_eq_ok : start (some t) (some b) hasOutput w i = .ok m ↔
    t.isEmpty = false ∧ hasOutput = true ∧ load t b w i = m := by
  unfold start
  cases ht : t.isEmpty <;> cases hasOutput <;> simp [ht]

/-- A machine is started alike on tables and knowledge that differ in the nesting only. -/
lemma start_tidy {b' : Knowledge.Base} (htu : t.tidy = u.tidy) (hb : b.tidy = b'.tidy)
    (hs : start (some t) (some b) hasOutput w i = .ok m) :
    ∃ n, start (some u) (some b') hasOutput w i = .ok n ∧ m.tidy = n.tidy := by
  have hempty (t : ClassTable) : t.tidy.isEmpty = t.isEmpty := by
    simp [ClassTable.isEmpty, ClassTable.tidy]
  obtain ⟨ht, hout, rfl⟩ := start_some_eq_ok.1 hs
  have hu : u.isEmpty = false := by rw [← hempty, ← htu, hempty, ht]
  refine ⟨load u b' w i, start_some_eq_ok.2 ⟨hu, hout, rfl⟩, ?_⟩
  show load t.tidy b.tidy w i = load u.tidy b'.tidy w i
  rw [htu, hb]

/-- Counts to two and prints each number twice; every row of three is nested in the given way. -/
def tallyProgram (nest : Stmt → Stmt → Stmt → Stmt) : Source :=
  ⟨[⟨"Counter", none, [⟨"n", "Int", ""⟩],
      [⟨"up", [], "Int",
        some (nest (.assign 1 (.own "n") (.binary .add (.own "n") (.lit (.int 1))))
          (.print 2 (.own "n")) (.ret 3 (some (.own "n")))), false⟩], "", false⟩],
    some (nest (.create 4 (.var "c") "Counter" [.lit (.int 0)])
      (.assign 5 (.var "x") (.lit (.int 0)))
      (.while 6 (.binary .lt (.var "x") (.lit (.int 2)))
        (nest (.call 7 (some (.var "x")) (.var "c") "up" []) (.print 8 (.var "x")) (.skip 9))))⟩

def leftNested (a b c : Stmt) : Stmt := .seq 0 (.seq 0 a b) c
def rightNested (a b c : Stmt) : Stmt := .seq 0 a (.seq 0 b c)

def tallyTable (nest : Stmt → Stmt → Stmt → Stmt) : ClassTable :=
  ⟨[⟨"Counter", none, false, [⟨"n", "Int", "Counter"⟩],
      ((tallyProgram nest).classes.flatMap (·.methods)).map fun d =>
        ⟨d.name, d.params, d.returnType, d.body, d.abstract, "Counter"⟩⟩,
      listInfo, entryInfo], [], (tallyProgram nest).main⟩

/-- What is known of the program, and a background ontology. -/
def tallyBase (nest : Stmt → Stmt → Stmt → Stmt) : Knowledge.Base :=
  { Knowledge.Base.crossingBase with
    lifter := .plain (tallyTable nest) Knowledge.Base.crossingSettings.namespaces }

lemma load_tally (nest : Stmt → Stmt → Stmt → Stmt) :
    Knowledge.Base.load (tallyTable nest) Knowledge.Base.crossingSettings
      Knowledge.Base.crossingTree = .ok (tallyBase nest) := by
  have hexternal : Knowledge.externalReasoner Knowledge.Base.crossingSettings = none := if_pos rfl
  refine Knowledge.Base.load_eq_ok.2 ⟨_, _, _, Lift.Lifter.new_eq_plain rfl,
    Knowledge.Base.core_crossing, Knowledge.Base.background_crossing, ?_⟩
  rw [hexternal, tallyBase, Knowledge.Base.crossingBase]

end Machine

end Run

end Semlift
