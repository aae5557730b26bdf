import Mathlib.Tactic.Lemma
import Semlift.Lang.Stmt

/-!
What statements are made of. A program may do without a kind of statements altogether; what a run
makes up itself, sequences, assignments and `skip`, is of no such kind.
-/

namespace Semlift.Lang

namespace Stmt

variable {q : Stmt → Bool} {a b c : Stmt} {n : Int}

/-- A statement and those inside it. -/
def parts : Stmt → List Stmt
  | .seq n a b => .seq n a b :: (a.parts ++ b.parts)
  | .ifThen n c b => .ifThen n c b :: b.parts
  | .ifElse n c b o => .ifElse n c b o :: (b.parts ++ o.parts)
  | .while n c b => .while n c b :: b.parts
  | a => [a]

lemma parts_seq : (seq n a b).parts = seq n a b :: (a.parts ++ b.parts) := rfl

lemma parts_ifThen {c : Expr} : (ifThen n c b).parts = ifThen n c b :: b.parts := rfl

lemma parts_ifElse {c : Expr} :
    (ifElse n c a b).parts = ifElse n c a b :: (a.parts ++ b.parts) := rfl

lemma parts_while {c : Expr} : (Stmt.while n c b).parts = .while n c b :: b.parts := rfl

lemma parts_assign {t : Loc} {e : Expr} : (assign n t e).parts = [assign n t e] := rfl

lemma parts_skip : (skip n).parts = [skip n] := rfl

/-- Sequences. -/
def isSeq : Stmt → Bool
  | .seq .. => true
  | _ => false

/-- Statements that wait for the value of a callee. -/
def isStore : Stmt → Bool
  | .store .. => true
  | _ => false

/-- Statements that ask what is known. -/
def asks : Stmt → Bool
  | .member .. | .access .. => true
  | _ => false

/-- No part of the statement is of the kind. -/
def Without (q : Stmt → Bool) (a : Stmt) : Prop := ∀ b ∈ a.parts, q b = false

instance : Decidable (a.Without q) := inferInstanceAs (Decidable (∀ b ∈ a.parts, q b = false))

/-- A kind of statements that a run does not make up itself. -/
structure Authored (q : Stmt → Bool) : Prop where
  seq : ∀ n a b, q (.seq n a b) = false
  assign : ∀ n t e, q (.assign n t e) = false
  skip : ∀ n, q (.skip n) = false

lemma authored_isStore : Authored isStore := ⟨fun _ _ _ => rfl, fun _ _ _ => rfl, fun _ => rfl⟩

lemma authored_asks : Authored asks := ⟨fun _ _ _ => rfl, fun _ _ _ => rfl, fun _ => rfl⟩

lemma self_mem_parts : a ∈ a.parts := by
  cases a <;> exact List.mem_cons_self

lemma Without.self (h : a.Without q) : q a = false := h a self_mem_parts

lemma without_seq (hq : Authored q) : (seq n a b).Without q ↔ a.Without q ∧ b.Without q := by
  simp [Without, parts_seq, hq.seq, or_imp, forall_and]

lemma without_skip (hq : Authored q) : (skip n).Without q := by
  simp [Without, parts_skip, hq.skip]

lemma without_assign (hq : Authored q) {t : Loc} {e : Expr} : (assign n t e).Without q := by
  simp [Without, parts_assign, hq.assign]

lemma Without.ifThen {c : Expr} (h : (Stmt.ifThen n c b).Without q) : b.Without q :=
  fun x hx => h x (by simp [parts_ifThen, hx])

lemma Without.ifElse {c : Expr} (h : (Stmt.ifElse n c a b).Without q) :
    a.Without q ∧ b.Without q :=
  ⟨fun x hx => h x (by simp [parts_ifElse, hx]), fun x hx => h x (by simp [parts_ifElse, hx])⟩

lemma Without.while {c : Expr} (h : (Stmt.while n c b).Without q) : b.Without q :=
  fun x hx => h x (by simp [parts_while, hx])

/-- The head of a statement is a part of it. -/
lemma head_mem_parts : a.head ∈ a.parts := by
  induction a with
  | seq n a b iha _ => simp [head, parts_seq, iha]
  | _ => exact List.mem_cons_self

lemma isSeq_head : a.head.isSeq = false := by
  induction a with
  | seq n a b ih _ => exact ih
  | _ => rfl

/-- Parts of parts are parts. -/
lemma mem_parts_trans (hb : b ∈ a.parts) (hc : c ∈ b.parts) : c ∈ a.parts := by
  induction a with
  | seq n first rest ihfirst ihrest =>
    rw [parts_seq, List.mem_cons, List.mem_append] at hb
    rcases hb with rfl | hb | hb
    · exact hc
    · simp [parts_seq, ihfirst hb]
    · simp [parts_seq, ihrest hb]
  | ifThen n e body ih =>
    rw [parts_ifThen, List.mem_cons] at hb
    rcases hb with rfl | hb
    · exact hc
    · simp [parts_ifThen, ih hb]
  | ifElse n e body other ihbody ihother =>
    rw [parts_ifElse, List.mem_cons, List.mem_append] at hb
    rcases hb with rfl | hb | hb
    · exact hc
    · simp [parts_ifElse, ihbody hb]
    · simp [parts_ifElse, ihother hb]
  | «while» n e body ih =>
    rw [parts_while, List.mem_cons] at hb
    rcases hb with rfl | hb
    · exact hc
    · simp [parts_while, ih hb]
  | _ =>
    obtain rfl := List.mem_singleton.1 hb
    exact hc

end Stmt

end Semlift.Lang
