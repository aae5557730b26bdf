import Semlift.Proofs.Query.Origin
import Semlift.Proofs.Text.Numerals

/-!
When two unknowns of a query become one. Variables, labels and numbered brackets all get names of
variables, and a name with the mark of blank nodes can be written in the text as well. What is
written apart stays apart exactly if no name of the text is that of a blank node, and no label the
number of a bracket.
-/

namespace Semlift.Query

open Semlift.Rdf Semlift.Text Semlift.Number

variable {ts : List Token} {text : String} {prefixes : Prefixes} {q : Select}

namespace Step

variable {α β γ : Type} {d e x : Draft} {y : Step α} {f : α → Step γ} {z : Step β} {a : α}
  {Q : α → Draft → Prop} {W : γ → Draft → β → Draft → Prop}

/-! ### Behind the group -/

lemma Ends.gives (h : Ends y d Q) (ha : Gives y d a e) : Q a e := by
  unfold Ends at h
  rwa [show y.run.run d = (.ok a, e) from ha] at h

/-- The second reader waits for the first. -/
lemma follows_waiting (h : ∀ a e, Gives y d a e → Follows (f a) e z x W) :
    Follows (y >>= f) d z x W := by
  intro c d' hc
  rw [ExceptT.run_bind, StateT.run_bind] at hc
  cases hy : y.run.run d with
  | mk r e =>
    rw [hy] at hc
    cases r with
    | error stop => cases hc
    | ok a => exact h a e hy c d' hc

lemma patterns_of_bound {cuts cuts' : Option ℕ × Option ℕ} (h : Gives (bound cuts) d cuts' e) :
    e.patterns = d.patterns := by
  have hb := bounding cuts d
  rw [show (bound cuts).run.run d = (.ok cuts', e) from h] at hb
  cases hb <;> rfl

lemma ends_finished_eq {select : Draft → Select} :
    Ends (finished select) d fun q _ => q = select d :=
  ends_atKind (fun _ => ends_get (ends_pure rfl)) fun _ => ends_current (ends_fail_bind (by simp))

lemma selected_eq {distinct : Bool} {shown : Projection} : selected distinct shown =
    group >>= fun _ => order >>= fun keys => bounds distinct shown keys := rfl

/-- The patterns of a query are those of its group. -/
lemma follows_bounds {distinct : Bool} {shown : Projection} {keys : List OrderKey} {b : β} :
    Follows (bounds distinct shown keys) d (pure b) x fun q _ c _ =>
      c = b ∧ q.patterns = d.patterns := by
  rw [bounds_eq]
  refine follows_waiting fun first d₁ h₁ => follows_waiting fun cuts d₂ h₂ => ?_
  intro q d₃ h₃
  refine ⟨b, x, rfl, rfl, ?_⟩
  rw [ends_finished_eq.gives h₃]
  exact (patterns_of_bound h₂).trans (patterns_of_bound h₁)

/-- What the patterns of a query stem from. -/
lemma follows_origins (hts : Ordered ts) (hc : Counted ts d) (hd : d.patterns = []) :
    Follows query d (do let _ ← opening; tracedGroup) d fun q _ ss _ =>
      q.patterns = ss.map (Statement.pattern ts) ∧ ∀ s ∈ ss, ∀ o ∈ s.origins, o.Placed ts := by
  rw [query_eq_opening]
  refine ends_opening.follows fun r e he => ?_
  rw [← bind_pure tracedGroup, selected_eq]
  refine (lists_group hts (hc.skips he)).bindList fun x ss h => ?_
  refine follows_waiting fun keys e' hkeys => follows_bounds.weaken ?_
  rintro q _ _ _ ⟨rfl, hq⟩
  refine ⟨?_, h.placed⟩
  rw [hq, (ends_order.gives hkeys).patterns, h.patterns, he.patterns, hd, List.nil_append]

end Step

/-! ### Names of variables -/

/-- Everything that stands in the patterns of a query, as it is written. -/
def origins (text : String) (prefixes : Prefixes) : List Origin :=
  (statements text prefixes).flatMap Statement.origins

/-- Only what is written alike becomes the same node. -/
def Uncaptured (ts : List Token) (os : List Origin) : Prop :=
  ∀ o ∈ os, ∀ o' ∈ os, o.node ts = o'.node ts → o = o'

instance (ts : List Token) (os : List Origin) : Decidable (Uncaptured ts os) :=
  inferInstanceAs (Decidable (∀ o ∈ os, ∀ o' ∈ os, o.node ts = o'.node ts → o = o'))

/-- No name is that of a label or a bracket, and no label is the number of a bracket, which says how
many brackets are opened in front of it. -/
structure Apart (ts : List Token) (os : List Origin) : Prop where
  label : ∀ label, .labelled label ∈ os → .named (blankMark ++ label) ∉ os
  number : ∀ place, .bracket place ∈ os → .named (blankMark ++ natText (opened ts place)) ∉ os
  numbered : ∀ place, .bracket place ∈ os → .labelled (natText (opened ts place)) ∉ os

lemma label_eq_of_blankVar {l l' : String} (h : blankVar l = blankVar l') : l = l' :=
  (String.append_right_inj _).1 (Node.var.inj h)

lemma uncaptured_iff_apart {os : List Origin} (h : ∀ o ∈ os, o.Placed ts) :
    Uncaptured ts os ↔ Apart ts os := by
  constructor
  · intro hu
    exact ⟨fun _ hl hn => absurd (hu _ hl _ hn rfl) nofun,
      fun _ hb hn => absurd (hu _ hb _ hn rfl) nofun,
      fun _ hb hl => absurd (hu _ hb _ hl rfl) nofun⟩
  · intro ha o ho o' ho' heq
    cases o with
    | constant t =>
      cases o' with
      | constant => exact congrArg _ (Node.term.inj heq)
      | _ => cases heq
    | named name =>
      cases o' with
      | constant => cases heq
      | named => exact congrArg _ (Node.var.inj heq)
      | labelled l => exact absurd (Node.var.inj heq ▸ ho) (ha.label l ho')
      | bracket place => exact absurd (Node.var.inj heq ▸ ho) (ha.number place ho')
    | labelled l =>
      cases o' with
      | constant => cases heq
      | named => exact absurd (Node.var.inj heq ▸ ho') (ha.label l ho)
      | labelled => exact congrArg _ (label_eq_of_blankVar heq)
      | bracket place =>
        exact absurd (label_eq_of_blankVar heq ▸ ho) (ha.numbered place ho')
    | bracket place =>
      cases o' with
      | constant => cases heq
      | named => exact absurd (Node.var.inj heq ▸ ho') (ha.number place ho)
      | labelled => exact absurd (label_eq_of_blankVar heq ▸ ho') (ha.numbered place ho)
      | bracket =>
        have hcount := natText_injective (label_eq_of_blankVar heq)
        exact congrArg _ (opened_injective (h _ ho) (h _ ho') hcount)

/-- The positions of an accepted query are made of what is written there, brackets being numbered in
order of the text, and they keep apart what is written apart exactly if no name is that of a blank
node and no label the number of a bracket. -/
theorem uncaptured_iff (h : parse text prefixes = .ok q) :
    ∃ ts, tokens text = .ok ts ∧
      q.patterns = (statements text prefixes).map (Statement.pattern ts) ∧
      (Uncaptured ts (origins text prefixes) ↔ Apart ts (origins text prefixes)) := by
  unfold parse at h
  cases hts : tokens text with
  | error fault =>
    rw [hts] at h
    cases h
  | ok ts =>
    rw [hts] at h
    dsimp only at h
    have hcounted : Counted ts ⟨ts, prefixes, 0, [], []⟩ := ⟨[], rfl, rfl⟩
    have hfollows := Step.follows_origins (ordered_of_tokensFrom hts) hcounted rfl
    cases hrun : Step.query.run.run ⟨ts, prefixes, 0, [], []⟩ with
    | mk r d =>
      rw [hrun] at h
      cases r with
      | error stop => cases stop <;> cases h
      | ok q' =>
        obtain rfl : q' = q := Except.ok.inj h
        obtain ⟨ss, e, hss, hpatterns, hplaced⟩ := hfollows q' d hrun
        have hstatements : statements text prefixes = ss := by
          unfold statements
          rw [hts]
          dsimp only
          rw [hss]
        refine ⟨ts, rfl, by rw [hstatements, hpatterns], uncaptured_iff_apart ?_⟩
        unfold origins
        rw [hstatements]
        intro o ho
        obtain ⟨s, hs, ho⟩ := List.mem_flatMap.1 ho
        exact hplaced s hs o ho

/-- Two brackets, a label and a variable. -/
theorem uncaptured_iff_brackets :
    ∃ q ts, parse "SELECT ?x WHERE { ?x <urn:p> [ <urn:q> _:b ] , [ ] }" .empty = .ok q ∧
      q.patterns = (statements "SELECT ?x WHERE { ?x <urn:p> [ <urn:q> _:b ] , [ ] }" .empty).map
        (Statement.pattern ts) ∧
      Apart ts (origins "SELECT ?x WHERE { ?x <urn:p> [ <urn:q> _:b ] , [ ] }" .empty) := by
  obtain ⟨q, hq, -⟩ := exists_ok_of_any (p := fun _ => true)
    (x := parse "SELECT ?x WHERE { ?x <urn:p> [ <urn:q> _:b ] , [ ] }" .empty) (by decide +kernel)
  obtain ⟨ts, hts, hpatterns, hiff⟩ := uncaptured_iff hq
  have htokens :
      (tokens "SELECT ?x WHERE { ?x <urn:p> [ <urn:q> _:b ] , [ ] }").toOption.getD [] = ts := by
    rw [hts]
    rfl
  refine ⟨q, ts, hq, hpatterns, hiff.1 ?_⟩
  rw [← htokens]
  decide +kernel

/-- A bracket is captured by the label that is its number, and by a name. -/
theorem bracket_captured :
    (parse "SELECT ?x WHERE { ?x <urn:p> [ ] . _:0 <urn:p> ?_blank_0 }" .empty).toOption.map
        Select.patterns =
      some [⟨.var "x", .term (.iri "urn:p"), .var "_blank_0"⟩,
        ⟨.var "_blank_0", .term (.iri "urn:p"), .var "_blank_0"⟩] ∧
    statements "SELECT ?x WHERE { ?x <urn:p> [ ] . _:0 <urn:p> ?_blank_0 }" .empty =
      [⟨.named "x", .constant (.iri "urn:p"), .bracket 29⟩,
        ⟨.labelled "0", .constant (.iri "urn:p"), .named "_blank_0"⟩] ∧
    ¬ Uncaptured
      ((tokens "SELECT ?x WHERE { ?x <urn:p> [ ] . _:0 <urn:p> ?_blank_0 }").toOption.getD [])
      (origins "SELECT ?x WHERE { ?x <urn:p> [ ] . _:0 <urn:p> ?_blank_0 }" .empty) := by
  decide +kernel

end Semlift.Query
