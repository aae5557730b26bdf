import Semlift.Proofs.Except
import Semlift.Ontology.ClassParser

/-!
The readers of class expressions. What a reader gives on certain tokens is put together from its
parts; what it can give at all has operands in the right numbers.
-/

namespace Semlift.Ontology

open Semlift.Rdf

/-- Conjunctions and disjunctions have two operands or more, and enumerations are not empty. -/
def ClassExpr.Regular : ClassExpr → Prop
  | .named _ => True
  | .inter first more => more ≠ [] ∧ first.Regular ∧ ∀ e ∈ more, e.Regular
  | .union first more => more ≠ [] ∧ first.Regular ∧ ∀ e ∈ more, e.Regular
  | .complement e => e.Regular
  | .some _ filler => filler.Regular
  | .value _ _ => True
  | .oneOf individuals => individuals ≠ []
termination_by e => e

variable {s : Scope} {ts us rest : List Token} {n : Nat} {e : ClassExpr} {source : String}

namespace Step

variable {α β : Type} {x : Step α} {test : Step Bool} {y z : Step β} {f : α → Step β} {a : α}
  {b : β} {P : α → Prop} {Q : β → Prop}

/-- A step gives a result and leaves the tokens that it does not use up. -/
def Reads (x : Step α) (ts : List Token) (a : α) (rest : List Token) : Prop :=
  x.run ts = .ok (a, rest)

lemma reads_pure : (pure a : Step α).Reads ts a ts := rfl

lemma Reads.bind (h : x.Reads ts a us) (hf : (f a).Reads us b rest) :
    (x >>= f).Reads ts b rest := by
  rw [Reads, StateT.run_bind, h]
  exact hf

lemma Reads.test_true (h : test.Reads ts true us) (hy : y.Reads us b rest) :
    (test >>= fun c => if c = true then y else z).Reads ts b rest :=
  h.bind hy

lemma Reads.test_false (h : test.Reads ts false us) (hz : z.Reads us b rest) :
    (test >>= fun c => if c = true then y else z).Reads ts b rest :=
  h.bind hz

/-- Whatever a step gives has a property. -/
def Ensures (x : Step α) (P : α → Prop) : Prop := ∀ ts a rest, x.Reads ts a rest → P a

lemma ensures_pure (h : P a) : (pure a : Step α).Ensures P := by
  rintro _ _ _ ⟨⟩
  exact h

lemma ensures_throw {fault : Fault} : (throw fault : Step α).Ensures P := by
  rintro _ _ _ ⟨⟩

lemma Ensures.bind (h : x.Ensures P) (hf : ∀ a, P a → (f a).Ensures Q) : (x >>= f).Ensures Q := by
  intro ts b rest hb
  rw [Reads, StateT.run_bind, bind_eq_ok] at hb
  obtain ⟨⟨a, us⟩, ha, hb⟩ := hb
  exact hf a (h ts a us ha) us b rest hb

/-- A step of which nothing is asked. -/
lemma ensures_bind (hf : ∀ a, (f a).Ensures Q) : (x >>= f).Ensures Q :=
  Ensures.bind (P := fun _ => True) (fun _ _ _ _ => trivial) fun a _ => hf a

/-- The reader of what follows a name: a filler, an individual, or nothing. -/
def afterName (s : Scope) (n : Nat) (name : String) : Step ClassExpr := do
  if ← atKeyword "some" then
    advance
    return .some name (← primary s n)
  else if ← atKeyword "value" then
    advance
    return .value name (← individual s)
  else return .named name

/-- An operand, and the connection of it with others if there are others. -/
lemma ensures_connected {x : Step ClassExpr} {y : Step (List ClassExpr)}
    {connect : ClassExpr → List ClassExpr → ClassExpr} (hx : x.Ensures ClassExpr.Regular)
    (hy : y.Ensures fun more => ∀ e ∈ more, e.Regular)
    (hconnect : ∀ first more, more ≠ [] → first.Regular → (∀ e ∈ more, e.Regular) →
      (connect first more).Regular) :
    (do
      let first ← x
      match ← y with
      | [] => return first
      | more => return connect first more : Step ClassExpr).Ensures ClassExpr.Regular := by
  refine hx.bind fun first hfirst => hy.bind fun more hmore => ?_
  cases more with
  | nil => exact ensures_pure hfirst
  | cons e more => exact ensures_pure (hconnect first (e :: more) (by simp) hfirst hmore)

/-- An operand after a connective, and those after it. -/
lemma ensures_next {x : Step ClassExpr} {y : Step (List ClassExpr)}
    (hx : x.Ensures ClassExpr.Regular) (hy : y.Ensures fun more => ∀ e ∈ more, e.Regular) :
    (do
      advance
      let e ← x
      return e :: (← y) : Step (List ClassExpr)).Ensures fun more => ∀ e ∈ more, e.Regular :=
  ensures_bind fun _ => hx.bind fun _ he => hy.bind fun _ hmore =>
    ensures_pure (List.forall_mem_cons.2 ⟨he, hmore⟩)

/-- What the readers of expressions ensure. -/
structure Regularly (s : Scope) (n : Nat) : Prop where
  disjunction : (disjunction s n).Ensures ClassExpr.Regular
  moreDisjuncts : (moreDisjuncts s n).Ensures fun more => ∀ e ∈ more, e.Regular
  conjunction : (conjunction s n).Ensures ClassExpr.Regular
  moreConjuncts : (moreConjuncts s n).Ensures fun more => ∀ e ∈ more, e.Regular
  primary : (primary s n).Ensures ClassExpr.Regular

lemma regularly_zero : Regularly s 0 :=
  ⟨ensures_throw, ensures_throw, ensures_throw, ensures_throw, ensures_throw⟩

lemma Regularly.succ_disjunction (h : Regularly s n) :
    (Step.disjunction s (n + 1)).Ensures ClassExpr.Regular := by
  rw [Step.disjunction]
  refine ensures_connected h.conjunction h.moreDisjuncts fun first more hne hfirst hmore => ?_
  rw [ClassExpr.Regular]
  exact ⟨hne, hfirst, hmore⟩

lemma Regularly.succ_moreDisjuncts (h : Regularly s n) :
    (Step.moreDisjuncts s (n + 1)).Ensures fun more => ∀ e ∈ more, e.Regular := by
  rw [Step.moreDisjuncts]
  refine ensures_bind fun c => ?_
  split
  · exact ensures_next h.conjunction h.moreDisjuncts
  · exact ensures_pure (by simp)

lemma Regularly.succ_conjunction (h : Regularly s n) :
    (Step.conjunction s (n + 1)).Ensures ClassExpr.Regular := by
  rw [Step.conjunction]
  refine ensures_connected h.primary h.moreConjuncts fun first more hne hfirst hmore => ?_
  rw [ClassExpr.Regular]
  exact ⟨hne, hfirst, hmore⟩

lemma Regularly.succ_moreConjuncts (h : Regularly s n) :
    (Step.moreConjuncts s (n + 1)).Ensures fun more => ∀ e ∈ more, e.Regular := by
  rw [Step.moreConjuncts]
  refine ensures_bind fun c => ensures_bind fun d => ?_
  split
  · exact ensures_next h.primary h.moreConjuncts
  · exact ensures_pure (by simp)

lemma Regularly.afterName (h : Regularly s n) {name : String} :
    (afterName s n name).Ensures ClassExpr.Regular := by
  refine ensures_bind fun c => ?_
  split
  · refine ensures_bind fun _ => h.primary.bind fun e he => ensures_pure ?_
    rwa [ClassExpr.Regular]
  refine ensures_bind fun c => ?_
  split
  · refine ensures_bind fun _ => ensures_bind fun x => ensures_pure ?_
    rw [ClassExpr.Regular]
    trivial
  · refine ensures_pure ?_
    rw [ClassExpr.Regular]
    trivial

lemma Regularly.succ_primary (h : Regularly s n) :
    (Step.primary s (n + 1)).Ensures ClassExpr.Regular := by
  rw [Step.primary]
  refine ensures_bind fun c => ?_
  split
  · refine ensures_bind fun _ => h.primary.bind fun e he => ensures_pure ?_
    rwa [ClassExpr.Regular]
  refine ensures_bind fun c => ?_
  split
  · refine ensures_bind fun _ => h.disjunction.bind fun e he => ensures_bind fun _ => ?_
    exact ensures_pure he
  refine ensures_bind fun c => ?_
  split
  · refine ensures_bind fun _ => ensures_bind fun first => ensures_bind fun ts =>
      ensures_bind fun more => ensures_bind fun _ => ensures_pure ?_
    rw [ClassExpr.Regular]
    simp
  -- What is left begins with a name.
  refine ensures_bind fun t => ?_
  dsimp only
  split
  · exact ensures_bind fun _ => ensures_bind fun _ => ensures_bind fun _ => h.afterName
  · exact ensures_bind fun _ => ensures_bind fun _ => h.afterName

lemma regularly (s : Scope) (n : Nat) : Regularly s n := by
  induction n with
  | zero => exact regularly_zero
  | succ n ih =>
    exact ⟨ih.succ_disjunction, ih.succ_moreDisjuncts, ih.succ_conjunction, ih.succ_moreConjuncts,
      ih.succ_primary⟩

lemma ensures_whole : (whole s).Ensures ClassExpr.Regular := by
  rw [whole]
  refine ensures_bind fun ts => (regularly s _).disjunction.bind fun e he => ?_
  refine ensures_bind fun t => ?_
  dsimp only
  split
  · exact ensures_bind fun _ => ensures_pure he
  · exact ensures_pure he

end Step

/-- What is read as a class expression has operands in the right numbers. -/
theorem regular_of_parse (h : ClassExpr.parse s source = .ok e) : e.Regular := by
  unfold ClassExpr.parse at h
  split at h
  · cases h
    rename_i hread
    obtain ⟨ts, -, hwhole⟩ := bind_eq_ok.1 hread
    obtain ⟨⟨e, rest⟩, hrun, rfl⟩ := map_eq_ok.1 hwhole
    exact Step.ensures_whole ts e rest hrun
  · cases h

end Semlift.Ontology
