import Mathlib.Tactic.Lemma
import Semlift.Store.Collect

/-!
Objects written in programs. A statement mentions an object when the object stands as a literal in
one of its expressions, however deep. The lists that a collection starts from hold exactly the
objects mentioned, for every form of statement.
-/

namespace Semlift.Lang

variable {r : ObjectRef}

inductive Expr.Mentions (r : ObjectRef) : Expr → Prop where
  | lit : Mentions r (.lit (.object r))
  | field {e : Expr} {f : String} : Mentions r e → Mentions r (.field e f)
  | unary {op : UnaryOp} {e : Expr} : Mentions r e → Mentions r (.unary op e)
  | left {op : BinaryOp} {a b : Expr} : Mentions r a → Mentions r (.binary op a b)
  | right {op : BinaryOp} {a b : Expr} : Mentions r b → Mentions r (.binary op a b)

inductive Loc.Mentions (r : ObjectRef) : Loc → Prop where
  | field {e : Expr} {f : String} : e.Mentions r → Mentions r (.field e f)

inductive Stmt.Mentions (r : ObjectRef) : Stmt → Prop where
  | assignTarget {n : Int} {t : Loc} {e : Expr} : t.Mentions r → Mentions r (.assign n t e)
  | assignValue {n : Int} {t : Loc} {e : Expr} : e.Mentions r → Mentions r (.assign n t e)
  | first {n : Int} {a b : Stmt} : Mentions r a → Mentions r (.seq n a b)
  | second {n : Int} {a b : Stmt} : Mentions r b → Mentions r (.seq n a b)
  | ifCondition {n : Int} {e : Expr} {b : Stmt} : e.Mentions r → Mentions r (.ifThen n e b)
  | ifBody {n : Int} {e : Expr} {b : Stmt} : Mentions r b → Mentions r (.ifThen n e b)
  | elseCondition {n : Int} {e : Expr} {b o : Stmt} :
      e.Mentions r → Mentions r (.ifElse n e b o)
  | elseBody {n : Int} {e : Expr} {b o : Stmt} : Mentions r b → Mentions r (.ifElse n e b o)
  | elseOther {n : Int} {e : Expr} {b o : Stmt} : Mentions r o → Mentions r (.ifElse n e b o)
  | whileCondition {n : Int} {e : Expr} {b : Stmt} : e.Mentions r → Mentions r (.while n e b)
  | whileBody {n : Int} {e : Expr} {b : Stmt} : Mentions r b → Mentions r (.while n e b)
  | createTarget {n : Int} {t : Loc} {c : String} {es : List Expr} :
      t.Mentions r → Mentions r (.create n t c es)
  | createArg {n : Int} {t : Loc} {c : String} {es : List Expr} {e : Expr} :
      e ∈ es → e.Mentions r → Mentions r (.create n t c es)
  | callTarget {n : Int} {t : Loc} {e : Expr} {m : String} {es : List Expr} :
      t.Mentions r → Mentions r (.call n (some t) e m es)
  | callReceiver {n : Int} {t : Option Loc} {e : Expr} {m : String} {es : List Expr} :
      e.Mentions r → Mentions r (.call n t e m es)
  | callArg {n : Int} {t : Option Loc} {e d : Expr} {m : String} {es : List Expr} :
      d ∈ es → d.Mentions r → Mentions r (.call n t e m es)
  | ret {n : Int} {e : Expr} : e.Mentions r → Mentions r (.ret n (some e))
  | print {n : Int} {e : Expr} : e.Mentions r → Mentions r (.print n e)
  | memberTarget {n : Int} {t : Loc} {q : Expr} : t.Mentions r → Mentions r (.member n t q)
  | memberQuery {n : Int} {t : Loc} {q : Expr} : q.Mentions r → Mentions r (.member n t q)
  | accessTarget {n : Int} {t : Loc} {q : Expr} {es : List Expr} :
      t.Mentions r → Mentions r (.access n t q es)
  | accessQuery {n : Int} {t : Loc} {q : Expr} {es : List Expr} :
      q.Mentions r → Mentions r (.access n t q es)
  | accessParam {n : Int} {t : Loc} {q e : Expr} {es : List Expr} :
      e ∈ es → e.Mentions r → Mentions r (.access n t q es)
  | store {n : Int} {t : Loc} : t.Mentions r → Mentions r (.store n (some t))

theorem Expr.mem_refs {e : Expr} : r ∈ e.refs ↔ e.Mentions r := by
  constructor
  · intro h
    induction e with
    | lit v =>
      cases v <;> simp [Expr.refs, Value.object?] at h
      exact h ▸ .lit
    | var | own | this => simp [Expr.refs] at h
    | field e f ih => exact .field (ih h)
    | unary op e ih => exact .unary (ih h)
    | binary op a b iha ihb =>
      rcases List.mem_append.1 h with h | h
      · exact .left (iha h)
      · exact .right (ihb h)
  · intro h
    induction h with
    | lit => simp [Expr.refs, Value.object?]
    | field _ ih | unary _ ih => exact ih
    | left _ ih => exact List.mem_append_left _ ih
    | right _ ih => exact List.mem_append_right _ ih

lemma Expr.mem_flatMap_refs {es : List Expr} :
    r ∈ es.flatMap Expr.refs ↔ ∃ e ∈ es, e.Mentions r := by
  simp [List.mem_flatMap, Expr.mem_refs]

theorem Loc.mem_refs {l : Loc} : r ∈ l.refs ↔ l.Mentions r := by
  constructor
  · intro h
    cases l with
    | var | own => simp [Loc.refs] at h
    | field e f => exact .field (Expr.mem_refs.1 h)
  · rintro ⟨h⟩
    exact Expr.mem_refs.2 h

/-- **The scan of a statement is complete**: it finds an object exactly if the statement mentions
it. -/
theorem Stmt.mem_refs {s : Stmt} : r ∈ s.refs ↔ s.Mentions r := by
  constructor
  · intro h
    induction s with
    | skip | breakpoint => simp [Stmt.refs] at h
    | assign n t e =>
      rcases List.mem_append.1 h with h | h
      · exact .assignTarget (Loc.mem_refs.1 h)
      · exact .assignValue (Expr.mem_refs.1 h)
    | seq n a b iha ihb =>
      rcases List.mem_append.1 h with h | h
      · exact .first (iha h)
      · exact .second (ihb h)
    | ifThen n e b ih =>
      rcases List.mem_append.1 h with h | h
      · exact .ifCondition (Expr.mem_refs.1 h)
      · exact .ifBody (ih h)
    | ifElse n e b o ihb iho =>
      simp only [Stmt.refs, List.mem_append, or_assoc] at h
      rcases h with h | h | h
      · exact .elseCondition (Expr.mem_refs.1 h)
      · exact .elseBody (ihb h)
      · exact .elseOther (iho h)
    | «while» n e b ih =>
      rcases List.mem_append.1 h with h | h
      · exact .whileCondition (Expr.mem_refs.1 h)
      · exact .whileBody (ih h)
    | create n t c es =>
      rcases List.mem_append.1 h with h | h
      · exact .createTarget (Loc.mem_refs.1 h)
      · obtain ⟨e, he, hm⟩ := Expr.mem_flatMap_refs.1 h
        exact .createArg he hm
    | call n t e m es =>
      simp only [Stmt.refs, List.mem_append, or_assoc] at h
      rcases h with h | h | h
      · cases t with
        | none => simp [Loc.targetRefs] at h
        | some l => exact .callTarget (Loc.mem_refs.1 h)
      · exact .callReceiver (Expr.mem_refs.1 h)
      · obtain ⟨d, hd, hm⟩ := Expr.mem_flatMap_refs.1 h
        exact .callArg hd hm
    | ret n e =>
      cases e with
      | none => simp [Stmt.refs] at h
      | some e => exact .ret (Expr.mem_refs.1 h)
    | print n e => exact .print (Expr.mem_refs.1 h)
    | member n t q =>
      rcases List.mem_append.1 h with h | h
      · exact .memberTarget (Loc.mem_refs.1 h)
      · exact .memberQuery (Expr.mem_refs.1 h)
    | access n t q es =>
      simp only [Stmt.refs, List.mem_append, or_assoc] at h
      rcases h with h | h | h
      · exact .accessTarget (Loc.mem_refs.1 h)
      · exact .accessQuery (Expr.mem_refs.1 h)
      · obtain ⟨e, he, hm⟩ := Expr.mem_flatMap_refs.1 h
        exact .accessParam he hm
    | store n t =>
      cases t with
      | none => simp [Stmt.refs, Loc.targetRefs] at h
      | some l => exact .store (Loc.mem_refs.1 h)
  · intro h
    induction h with
    | createArg he hm | callArg he hm | accessParam he hm =>
      simp only [Stmt.refs, List.mem_append, Expr.mem_flatMap_refs]
      exact .inr ⟨_, he, hm⟩
    | _ => simp_all [Stmt.refs, Loc.targetRefs, Expr.mem_refs, Loc.mem_refs]

end Semlift.Lang
