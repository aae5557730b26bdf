import Semlift.Proofs.Lang.Nesting
import Semlift.Proofs.Run.Rules

/-!
Sequences along their first parts. A statement is its head and what follows it: it does what its
head does, and goes on with what its head leaves over and all that follows. A value that it waits
for is put into its head, and what follows stays.
-/

namespace Semlift.Run

open Semlift.Lang Semlift.Store

variable {c : Context} {f : Frame} {s : State} {a b : Stmt} {e : Effect} {v : Value}
  {more : List Stmt}

/-- What is left over, with all that follows it. -/
def followedByAll (more : List Stmt) (residual : Option Stmt) : Option Stmt :=
  more.foldl (fun r rest => followedBy rest r) residual

/-- An action with all that follows it. -/
def Action.followedByAll (more : List Stmt) : Action → Action
  | .proceed residual breakpoint => .proceed (Run.followedByAll more residual) breakpoint
  | .spawn callee residual => .spawn callee (Run.followedByAll more residual)
  | .ret v => .ret v

lemma followedByAll_some : followedByAll more (some a) = some (a.andThen more) := by
  induction more generalizing a with
  | nil => rfl
  | cons b more ih => exact ih

lemma followedByAll_none : followedByAll (a :: more) none = some (a.andThen more) :=
  followedByAll_some

lemma Action.followedByAll_concat {y : Action} :
    y.followedByAll (more ++ [b]) = (y.followedByAll more).followedBy b := by
  cases y <;> simp [followedByAll, followedBy, Run.followedByAll, List.foldl_append]

/-- An effect with all that follows it. -/
def Effect.followedByAll (more : List Stmt) (e : Effect) : Effect :=
  { e with action := e.action.followedByAll more }

/-- **A statement does what its head does** and goes on with what follows. -/
theorem exec_eq_head : exec c f s a = (exec c f s a.head).map (Effect.followedByAll a.rests) := by
  have hself (x : Except Halt Effect) : x = x.map (Effect.followedByAll []) := by
    rcases x with x | ⟨f, s, printed, _ | _ | _⟩ <;> rfl
  induction a with
  | seq line first rest ih _ =>
    rw [exec, ih, Stmt.head, Stmt.rests]
    cases exec c f s first.head with
    | error x => rfl
    | ok e =>
      simp only [Except.map, bind, Except.bind, pure, Except.pure, Effect.followedByAll,
        Action.followedByAll_concat]
  | _ => exact hself _

lemma exec_head_eq_ok (he : exec c f s a = .ok e) :
    ∃ d, exec c f s a.head = .ok d ∧ d.followedByAll a.rests = e := by
  rw [exec_eq_head] at he
  exact map_eq_ok.1 he

/-- What stands in the place of a statement that waits, once it is given a value. -/
def given (line : Int) (v : Value) : Option Loc → Stmt
  | none => .skip line
  | some target => .assign line target (.lit v)

/-- **A value is given to the head** of a statement that waits; what follows stays. -/
theorem resume_eq_head : resume v a = (resume v a.head).map (·.andThen a.rests) := by
  induction a with
  | seq line first rest ih _ =>
    rw [resume, ih, Option.map_map, Stmt.head, Stmt.rests]
    refine Option.map_congr fun b _ => ?_
    rw [Stmt.andThen_append]
    rfl
  | store line target => cases target <;> rfl
  | _ => rfl

/-- A statement that waits for a callee goes on with the value in its place. -/
lemma resume_andThen {line : Int} {target : Option Loc} :
    resume v ((Stmt.store line target).andThen more) =
      some ((given line v target).andThen more) := by
  rw [resume_eq_head, Stmt.head_andThen, Stmt.rests_andThen]
  cases target <;> rfl

end Semlift.Run
