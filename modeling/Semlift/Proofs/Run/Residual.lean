import Semlift.Proofs.Run.Rules

/-!
What is left after one statement. The frames below are those from before, and of its own frame a
statement changes the local variables only. What is left over is made of parts of the statement and
of what a run makes up itself; only after a call of a method does it wait at its head. A statement
that fails without a fault waits for a value that did not come, or asks with a number too large.
-/

namespace Semlift.Run

open Semlift.Lang Semlift.Program Semlift.Store

variable {p : Source} {c : Context} {f f' : Frame} {s s' : State} {a b : Stmt} {e : Effect}
  {q : Stmt → Bool} {v : Value} {x : Failure}

/-! ### What a statement leaves alone -/

/-- Only local variables of the frame and the heap have changed, and the numbers given out. -/
structure Confined (f : Frame) (s : State) (f' : Frame) (s' : State) : Prop where
  stack : s'.stack = s.stack
  root : s'.root = s.root
  simulation : s'.simulation = s.simulation
  frame : ∃ locals, f' = { f with locals := locals }

lemma confined_write {slot : Slot} (hw : slot.write v f s = .ok (f', s')) :
    Confined f s f' s' := by
  rcases write_eq_ok hw with ⟨name, -, rfl, rfl⟩ | ⟨r, name, -, rfl, rfl⟩
  · exact ⟨rfl, rfl, rfl, _, rfl⟩
  · exact ⟨rfl, rfl, rfl, _, rfl⟩

/-- **A statement leaves the frames below alone**, and its own frame apart from the variables. -/
theorem confined_exec (he : exec c f s a = .ok e) : Confined f s e.frame e.state := by
  rw [exec_eq_ok] at he
  induction he with
  | seq _ ih => exact ⟨ih.stack, ih.root, ih.simulation, ih.frame⟩
  | assign _ _ hw => exact confined_write hw
  | create _ hw _ | construct _ hw _ =>
    have hc := confined_write hw
    exact ⟨hc.stack, hc.root, hc.simulation, hc.frame⟩
  | _ => exact ⟨rfl, rfl, rfl, _, rfl⟩

/-! ### What is left over -/

/-- A statement that waits at its head for a callee, and is otherwise without the kind. -/
inductive Waits (q : Stmt → Bool) : Stmt → Prop where
  | store {line : Int} {target : Option Loc} : Waits q (.store line target)
  | seq {line : Int} {first rest : Stmt} :
      Waits q first → rest.Without q → Waits q (.seq line first rest)

/-- What goes on after an action is without the kind; after a call it waits for the callee. -/
def Action.Without (q : Stmt → Bool) : Action → Prop
  | .proceed residual _ => ∀ b, residual = some b → b.Without q
  | .spawn callee residual =>
    (∀ b, callee.active = some b → b.Without q) ∧
      if callee.returnsValue then ∃ b, residual = some b ∧ Waits q b
      else ∀ b, residual = some b → b.Without q
  | .ret _ => True

lemma without_followedBy (hq : Stmt.Authored q) (hb : b.Without q) {residual : Option Stmt}
    (hr : ∀ a, residual = some a → a.Without q) :
    ∀ a, followedBy b residual = some a → a.Without q := by
  cases residual with
  | none =>
    rintro a ⟨⟩
    exact hb
  | some d =>
    rintro a ⟨⟩
    exact (Stmt.without_seq hq).2 ⟨hr d rfl, hb⟩

lemma Action.Without.followedBy {y : Action} (hq : Stmt.Authored q) (hy : y.Without q)
    (hb : b.Without q) : (y.followedBy b).Without q := by
  cases y with
  | proceed residual breakpoint => exact without_followedBy hq hb hy
  | spawn callee residual =>
    refine ⟨hy.1, ?_⟩
    have hr := hy.2
    split at hr
    · rename_i hc
      obtain ⟨d, rfl, hd⟩ := hr
      rw [if_pos hc]
      exact ⟨_, rfl, .seq hd hb⟩
    · rename_i hc
      rw [if_neg hc]
      exact without_followedBy hq hb hr
  | ret v => trivial

lemma without_body {className method : String} {m : MethodInfo} {t : ClassTable}
    (ht : t.Proper p) (hp : p.Without q) (hl : t.lookup? className method = some m)
    (hb : m.body = some b) : b.Without q := by
  obtain ⟨d, hm⟩ := mem_methods_of_lookup? hl
  exact hp b (ht.bodies d m hm b hb)

/-- **What is left over** of a statement without a kind is without it, and so is what a callee
runs. -/
theorem without_exec (hq : Stmt.Authored q) (ht : c.table.Proper p) (hp : p.Without q)
    (ha : a.Without q) (he : exec c f s a = .ok e) : e.action.Without q := by
  rw [exec_eq_ok] at he
  induction he with
  | seq _ ih =>
    obtain ⟨hfirst, hrest⟩ := (Stmt.without_seq hq).1 ha
    exact (ih hfirst).followedBy hq hrest
  | @ifThen _ _ _ holds _ =>
    rintro b hb
    split at hb <;> cases hb
    exact ha.ifThen
  | ifElse _ =>
    rintro b hb
    split at hb <;> cases hb
    · exact ha.ifElse.1
    · exact ha.ifElse.2
  | «while» _ =>
    rintro b hb
    split at hb <;> cases hb
    exact (Stmt.without_seq hq).2 ⟨ha.while, ha⟩
  | construct _ _ hbody =>
    obtain ⟨m, hl, hb⟩ := Option.bind_eq_some_iff.1 hbody
    refine ⟨?_, by simp⟩
    rintro b ⟨⟩
    exact without_body ht hp hl hb
  | call _ hm _ =>
    obtain ⟨hl, hb⟩ := callee_eq_ok hm
    refine ⟨?_, _, rfl, .store⟩
    rintro b ⟨⟩
    exact without_body ht hp hl hb
  | member | access =>
    rintro b ⟨⟩
    exact Stmt.without_assign hq
  | ret | retValue => trivial
  | skip | assign | create | print | breakpoint => simp [done, Action.Without]

/-! ### What is left of a statement that fails -/

lemma failure_of_query {k : Knowledge.Base} {w : Knowledge.View} {text : String}
    (h : k.query s w text = .error x) (hx : ∀ d, x ≠ .reported d) : x = .numberTooLarge := by
  unfold Knowledge.Base.query at h
  split at h
  · rename_i rejection _
    cases rejection with
    | fault offset g =>
      cases h
      exact absurd rfl (hx _)
    | countTooLarge =>
      cases h
      rfl
  · simp at h

/-- **How a statement fails**: by a fault, which leaves all but the heap as it is, or for want of a
value that it waits for, or by a number too large in a query. -/
theorem halt_of_exec {y : Halt} (he : exec c f s a = .error y) :
    (∃ fault heap, y = .fault fault { s with heap := heap }) ∨
      (y = .failure (resumedEarly f) ∧ a.head.isStore = true) ∨ y = .failure .numberTooLarge := by
  have key {α : Type} {z : Except Fault α} {g : Heap}
      (hz : faultAt { s with heap := g } z = .error y) :
      ∃ fault heap, y = .fault fault { s with heap := heap } := by
    obtain ⟨q, -, rfl⟩ := faultAt_eq_error.1 hz
    exact ⟨q, _, rfl⟩
  induction a with
  | seq line first rest ih _ =>
    simp only [exec, bind_eq_error, pure, Except.pure] at he
    rcases he with he | ⟨_, -, he⟩
    · exact ih he
    · simp at he
  | create line target className args =>
    simp only [exec, create, bind_eq_error] at he
    rcases he with he | ⟨_, -, he | ⟨_, -, he⟩⟩
    · exact .inl (key he)
    · exact .inl (key he)
    · split at he <;> simp [pure, Except.pure] at he
  | access line target query params =>
    simp only [exec, access, bind_eq_error] at he
    rcases he with he | ⟨text, -, he⟩
    · exact .inl (key he)
    · split at he
      · exact .inl (key he)
      · cases he
        exact .inl ⟨_, _, rfl⟩
      · rename_i x hx hquery
        cases he
        exact .inr (.inr (by rw [failure_of_query hquery hx]))
  | store line target =>
    cases he
    exact .inr (.inl ⟨rfl, rfl⟩)
  | skip | breakpoint => simp [exec] at he
  | assign | ifThen | ifElse | «while» | call | ret | print | member => exact .inl (key he)

/-- A fault leaves all but the heap as it is. -/
lemma left_of_fault {fault : Fault} {left : State}
    (he : exec c f s a = .error (.fault fault left)) : ∃ heap, left = { s with heap := heap } := by
  rcases halt_of_exec he with ⟨_, heap, h⟩ | ⟨h, -⟩ | h <;> cases h
  exact ⟨heap, rfl⟩

/-- A statement that is not executed for another reason than a fault has no diagnostic. -/
lemma exec_ne_reported {d : Diagnostic} : exec c f s a ≠ .error (.failure (.reported d)) := by
  intro he
  rcases halt_of_exec he with ⟨_, _, h⟩ | ⟨h, -⟩ | h <;> cases h

end Semlift.Run
