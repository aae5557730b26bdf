import Semlift.Proofs.Program.Concrete
import Semlift.Proofs.Run.Faults

/-!
What a failing statement says, and where. No fault has a place of its own, so the diagnostic of a
step names the statement that was to be executed, and none but that. Some faults are precluded by the
checks of a program before it runs. In a sound state, where objects are of concrete classes and the
statement makes objects of concrete classes only, a fault has a message that no precluded fault has.
-/

namespace Semlift

/-- A diagnostic that does not say where it was met. -/
def Diagnostic.Placeless (d : Diagnostic) : Prop := d.primary.span = none

/-- **A place is put** where there was none. -/
lemma Diagnostic.Placeless.span_atStatement {d : Diagnostic} (hd : d.Placeless) (span : Span) :
    (d.atStatement span).primary.span = some span := by
  have hnone : d.primary.span = none := hd
  unfold atStatement
  dsimp only
  split
  · exact congrArg (· <|> some span) hnone
  · exact congrArg (· <|> some span) hnone

end Semlift

namespace Semlift.Run

open Semlift.Lang Semlift.Program Semlift.Store

variable {p : Source} {c : Context} {f : Frame} {s left : State} {a : Stmt} {q : Fault}
  {d : Diagnostic} {b : Knowledge.Base} {w : Knowledge.View} {text : String}

/-- The faults that the checks before a run are there to preclude. -/
inductive Fault.Precluded : Fault → Prop where
  | dangling (r : ObjectRef) : Precluded (.dangling r)
  | unknownClass (className : String) : Precluded (.unknownClass className)
  | abstractClass (className : String) : Precluded (.abstractClass className)
  | abstractMethod (className method : String) : Precluded (.abstractMethod className method)

/-- No precluded fault has the message. -/
def Foreign (text : String) : Prop := ∀ q : Fault, q.Precluded → text ≠ q.message

/-! ### Messages by their beginnings -/

/-- How the messages of precluded faults begin. -/
def precludedLeads : List (List Char) :=
  [['d', 'a', 'n', 'g', 'l', 'i', 'n', 'g', ' '],
    ['u', 'n', 'k', 'n', 'o', 'w', 'n', ' ', 'c', 'l', 'a', 's', 's', ' '],
    ['c', 'a', 'n', 'n', 'o', 't', ' ', 'i', 'n', 's', 't', 'a', 'n', 't', 'i', 'a', 't', 'e', ' '],
    ['m', 'e', 't', 'h', 'o', 'd', ' ']]

lemma Fault.Precluded.lead (hq : q.Precluded) :
    ∃ lead ∈ precludedLeads, lead <+: q.message.toList := by
  have begins {cs : List Char} (n : Nat) (more : String) :
      cs.take n <+: (String.ofList cs ++ more).toList := by
    rw [String.toList_append, String.toList_ofList]
    exact (List.take_prefix n cs).trans (List.prefix_append _ _)
  cases hq with
  | dangling r => exact ⟨_, by simp [precludedLeads], begins 9 r.name⟩
  | unknownClass x => exact ⟨_, by simp [precludedLeads], begins 14 x⟩
  | abstractClass x => exact ⟨_, by simp [precludedLeads], begins 19 x⟩
  | abstractMethod x m =>
    have hmessage : (Fault.abstractMethod x m).message =
        "method " ++ (x ++ "." ++ m ++ " is abstract") := by
      show "method " ++ x ++ "." ++ m ++ " is abstract" = _
      simp only [String.append_assoc]
    exact ⟨_, by simp [precludedLeads], hmessage ▸ begins 7 _⟩

/-- Neither text begins with the other. -/
def diverge (a b : List Char) : Bool := !a.isPrefixOf b && !b.isPrefixOf a

lemma diverge_iff {a b : List Char} : diverge a b = true ↔ ¬ a <+: b ∧ ¬ b <+: a := by
  simp [diverge, ← Bool.not_eq_true]

/-- The text begins otherwise than the messages of precluded faults. -/
def Apart (text : String) : Prop := ∀ lead ∈ precludedLeads, diverge text.toList lead = true

lemma apart {cs : List Char} (h : precludedLeads.all (diverge cs) = true) :
    Apart (String.ofList cs) := by
  intro lead hlead
  rw [String.toList_ofList]
  exact List.all_eq_true.1 h lead hlead

lemma Apart.append {more : String} (ht : Apart text) : Apart (text ++ more) := by
  intro lead hlead
  obtain ⟨h1, h2⟩ := diverge_iff.1 (ht lead hlead)
  rw [diverge_iff, String.toList_append]
  refine ⟨fun h => h1 ((List.prefix_append _ _).trans h), fun h => ?_⟩
  rcases List.prefix_or_prefix_of_prefix (List.prefix_append _ _) h with h | h
  · exact h1 h
  · exact h2 h

lemma Apart.foreign (ht : Apart text) : Foreign text := by
  intro q hq he
  obtain ⟨lead, hlead, hprefix⟩ := hq.lead
  rw [← he] at hprefix
  exact (diverge_iff.1 (ht lead hlead)).2 hprefix

/-! ### Faults of the language -/

/-- **The message of an ordinary fault** begins otherwise than those of precluded ones. -/
theorem Fault.foreign_of_ordinary (hq : q.ordinary = true) : Foreign q.message := by
  have hmismatch (detail : String) : Foreign (mismatch detail) :=
    (apart (by decide) : Apart "type mismatch: ").append.foreign
  have harity (what : String) (expected given : Nat) : Foreign (arity what expected given) :=
    (apart (by decide) : Apart "arity mismatch: ").append.append.append.append.append.foreign
  cases q with
  | dangling | unknownClass | abstractClass | abstractMethod | unanswered => cases hq
  | badOperand | badOperands | badRead | badWrite | badCall => exact hmismatch _
  | creationArity | callArity => exact harity _ _ _
  | unknownVariable => exact (apart (by decide) : Apart "unknown variable '").append.append.foreign
  | divisionByZero => exact (apart (by decide) : Apart "division by zero").foreign
  | nullRead =>
    exact (apart (by decide) : Apart "null dereference reading field '").append.append.foreign
  | unknownField =>
    exact (apart (by decide) :
      Apart "unknown field '").append.append.append.append.append.append.foreign
  | nullWrite =>
    exact (apart (by decide) : Apart "null dereference writing field '").append.append.foreign
  | undeclaredField =>
    exact (apart (by decide) : Apart "unknown field '").append.append.append.foreign
  | badCondition =>
    exact (apart (by decide) : Apart "condition must be a Boolean, got ").append.foreign
  | badLoopCondition =>
    exact (apart (by decide) : Apart "loop condition must be a Boolean, got ").append.foreign
  | constructorParameters =>
    exact (apart (by decide) : Apart "arity mismatch: ").append.append.foreign
  | nullCall => exact (apart (by decide) : Apart "call of ").append.append.foreign
  | noMethod => exact (apart (by decide) : Apart "class ").append.append.append.foreign
  | badQuestion what v =>
    have hwhat : what = "member query" ∨ what = "access query" := by
      simpa [questionNames] using List.contains_iff_mem.1 hq
    rcases hwhat with rfl | rfl
    · exact (apart (by decide) : Apart "member query").append.append.foreign
    · exact (apart (by decide) : Apart "access query").append.append.foreign
  | nullParameter => exact (apart (by decide) : Apart "access parameter %").append.append.foreign
  | unlowered m =>
    cases m with
    | outOfRange =>
      exact (apart (by decide) : Apart "integer literal out of range: ").append.foreign
    | unknownShape => exact (apart (by decide) : Apart "unknown literal shape: ").append.foreign
  | ended =>
    exact (apart (by decide) : Apart "no frame to evaluate in: execution has ended").foreign

lemma Fault.placeless_of_ordinary (hq : q.ordinary = true) : q.diagnostic.Placeless := by
  cases q with
  | unanswered => cases hq
  | _ => rfl

/-! ### Questions -/

/-- The diagnostic neither says where it was met nor what the checks of a program preclude. -/
structure Neutral (d : Diagnostic) : Prop where
  placeless : d.Placeless
  foreign : Foreign d.message

lemma neutral_parse {scope : Ontology.Scope} :
    Errs Neutral (Ontology.ClassExpr.parse scope text) := by
  have about (more : String) : Foreign (Ontology.Fault.message.about text more) :=
    (apart (by decide) : Apart "class expression '").append.append.append.foreign
  unfold Ontology.ClassExpr.parse
  split
  · exact errs_ok
  · rename_i fault _
    refine errs_error ⟨rfl, ?_⟩
    cases fault with
    | openIri =>
      exact (apart (by decide) :
        Apart "unterminated IRI in class expression '").append.append.foreign
    | openString =>
      exact (apart (by decide) :
        Apart "unterminated string in class expression '").append.append.foreign
    | _ => exact about _

lemma neutral_answerTerm {cs : List Char} : Errs Neutral (Ontology.answerTerm cs) := by
  have malformed : Neutral (Ontology.malformed (Text.trim cs)) :=
    ⟨rfl, (apart (by decide) : Apart "malformed literal in reasoner output: ").append.foreign⟩
  have unrecognized :
      Neutral (.host ("unrecognized reasoner output line: " ++ String.ofList (Text.trim cs))) :=
    ⟨rfl, (apart (by decide) : Apart "unrecognized reasoner output line: ").append.foreign⟩
  unfold Ontology.answerTerm
  dsimp only
  split
  · exact errs_error ⟨rfl, (apart (by decide) : Apart "empty reasoner output line").foreign⟩
  · split
    · exact errs_ok
    · exact errs_error unrecognized
  · exact errs_ok
  · unfold Ontology.answerLiteral
    split
    · exact errs_error malformed
    · dsimp only
      split
      · exact errs_ok
      · exact errs_ok
      · split
        · exact errs_ok
        · exact errs_error malformed
      · exact errs_error malformed
  · exact errs_error unrecognized

/-- A line that spells no term is reported for the whole answer. -/
lemma neutral_listed {output : String} : Errs Neutral (Ontology.listed output) := by
  refine .mapM fun cs _ => ?_
  split
  · exact errs_ok
  · rename_i d hd
    exact errs_error ⟨rfl, (neutral_answerTerm d hd).foreign⟩

lemma neutral_ask {x : Knowledge.External} {files : Files.Tree} {g : Rdf.Graph}
    {question : String} {more : List String} : Errs Neutral (x.ask files g question more).1 := by
  unfold Knowledge.External.ask
  split
  · exact errs_error
      ⟨rfl, (apart (by decide) : Apart "no external reasoner command is configured").foreign⟩
  · dsimp only
    split
    · exact errs_error
        ⟨rfl, (apart (by decide) : Apart "cannot write reasoner input '").append.append.foreign⟩
    · dsimp only
      split
      · exact errs_ok
      · exact errs_error ⟨rfl, (apart (by decide) :
          Apart "external reasoner exited with status ").append.append.append.foreign⟩

lemma neutral_reasoner {mode : Knowledge.Mode} : Errs Neutral (b.reasoner mode) := by
  unfold Knowledge.Base.reasoner
  dsimp only
  split
  · exact errs_ok
  · exact errs_error
      ⟨rfl, (apart (by decide) : Apart "no reasoner configured for mode ").append.foreign⟩

lemma neutral_members : Errs Neutral (b.members s w text) := by
  refine neutral_parse.bind fun e _ => ?_
  dsimp only
  split
  · exact errs_ok
  · refine neutral_reasoner.bind fun x _ => ?_
    cases x with
    | schema => exact errs_ok
    | external x => exact neutral_ask.bind fun _ _ => neutral_listed

lemma neutral_of_query (hd : b.query s w text = .error (.reported d)) : Neutral d := by
  unfold Knowledge.Base.query at hd
  split at hd
  · rename_i rejection _
    cases rejection with
    | fault offset g =>
      cases hd
      exact ⟨rfl, (apart (by decide) : Apart "query offset ").append.append.append.foreign⟩
    | countTooLarge => cases hd
  · cases hd

/-! ### Statements -/

/-- **No fault of a statement has a place** of its own. -/
theorem placeless_of_exec (hx : exec c f s a = .error (.fault q left)) :
    q.diagnostic.Placeless := by
  have hcause := cause_of_exec hx
  generalize a.head = b at hcause
  cases hcause with
  | unevaluable hq =>
    cases hq with
    | ordinary hq => exact Fault.placeless_of_ordinary hq
    | dangling => rfl
  | unknownClass | abstractClass | abstractMethod => rfl
  | members hd => exact (neutral_members _ hd).placeless
  | answers hd => exact (neutral_of_query hd).placeless

/-- **A statement never fails with a precluded fault**, if all objects are of concrete classes, also
those that it makes. -/
theorem foreign_of_exec (ht : c.table.Checked p)
    (hc : ∀ r, s.heap.Alive r → c.table.Concrete r.className) (hs : s.Sound c.table)
    (hf : f.Sound s.heap) (ha : s.heap.Backs a) (hw : a.Without (createsOther c.table))
    (hx : exec c f s a = .error (.fault q left)) : Foreign q.message := by
  have hcause := cause_of_exec hx
  have hrefs : ∀ r ∈ a.head.refs, s.heap.Alive r := fun r hr => ha r (a.refs_head_subset hr)
  have hmade : createsOther c.table a.head = false := hw a.head Stmt.head_mem_parts
  generalize a.head = b at hcause hrefs hmade
  cases hcause with
  | unevaluable hq => exact Fault.foreign_of_ordinary (hq.ordinary_of_sound hs.heap hf hrefs)
  | unknownClass h => simp [createsOther, h] at hmade
  | abstractClass h => simp [createsOther, h] at hmade
  | abstractMethod hv hl hm =>
    have hreceiver := (List.forall_mem_append.1 (List.forall_mem_append.1 hrefs).1).2
    have hlive := Heap.supports_object.1 (supports_eval hs.heap hf hreceiver hv)
    obtain ⟨habstract, _, hbody⟩ := ht.body_of_lookup? (hc _ hlive) hl
    simp [habstract, hbody] at hm
  | members hd => exact (neutral_members _ hd).foreign
  | answers hd => exact (neutral_of_query hd).foreign

end Semlift.Run
