import Mathlib.Data.List.Infix
import Semlift.Proofs.Rdf.Turtle.Gives
import Semlift.Proofs.Rdf.Turtle.Keeps
import Semlift.Proofs.Rdf.Turtle.Places

/-!
What reading uses up. A step that succeeds goes on with a later part of the text. Names, literals
and single characters use up text and change nothing else; an object and a statement are never read
from nothing.
-/

namespace Semlift.Rdf.Turtle

open Semlift.Text

/-- What is left of a text of which at least so many characters are gone. -/
structure Leaves (k : Nat) (cs rest : List Char) : Prop where
  suffix : rest <:+ cs
  length : rest.length + k ≤ cs.length

variable {j k n : Nat} {b long : Bool} {c mark : Char} {cs mid rest s w : List Char} {t : Term}

namespace Leaves

lemma refl : Leaves 0 cs cs := ⟨List.suffix_rfl, by simp⟩

lemma trans (h : Leaves j cs mid) (h' : Leaves k mid rest) : Leaves (k + j) cs rest :=
  ⟨h'.suffix.trans h.suffix, by have := h.length; have := h'.length; omega⟩

lemma weaken (h : Leaves k cs rest) (hj : j ≤ k) : Leaves j cs rest :=
  ⟨h.suffix, by have := h.length; omega⟩

lemma cons (h : Leaves k cs rest) : Leaves (k + 1) (c :: cs) rest :=
  ⟨h.suffix.trans (List.suffix_cons c cs), by have := h.length; simp only [List.length_cons]; omega⟩

end Leaves

lemma leaves_append : Leaves w.length (w ++ rest) rest :=
  ⟨List.suffix_append w rest, by rw [List.length_append, Nat.add_comm]⟩

lemma leaves_drop : Leaves 0 cs (cs.drop n) := ⟨List.drop_suffix n cs, by simp⟩

lemma leaves_dropWhile {p : Char → Bool} : Leaves 0 cs (cs.dropWhile p) :=
  ⟨List.dropWhile_suffix p, (List.dropWhile_suffix p).length_le⟩

lemma leaves_ite_drop : Leaves 0 cs (if b = true then cs.drop n else cs) := by
  cases b with
  | true => exact leaves_drop
  | false => exact .refl

lemma leaves_drop_one (h : at' cs 0 = c) (hc : c ≠ '\x00') : Leaves 1 cs (cs.drop 1) := by
  obtain ⟨more, hmore⟩ := exists_cons_of_at' h hc
  obtain rfl : cs = c :: more := hmore
  exact Leaves.refl.cons

/-! ### Pieces -/

lemma leaves_skipFrom {isGap : Char → Bool} : Leaves 0 cs (skipFrom isGap b cs) := by
  induction cs generalizing b with
  | nil => cases b <;> exact .refl
  | cons c cs ih =>
    cases b with
    | true => exact ih.cons.weaken (Nat.zero_le _)
    | false =>
      unfold skipFrom
      split_ifs
      · exact ih.cons.weaken (Nat.zero_le _)
      · exact ih.cons.weaken (Nat.zero_le _)
      · exact .refl

lemma leaves_skipSemicolons (h : at' cs 0 = ';') : Leaves 1 cs (skipSemicolons cs) := by
  obtain ⟨more, hmore⟩ := exists_cons_of_at' h (by decide)
  obtain rfl : cs = ';' :: more := hmore
  exact leaves_skipFrom.cons

lemma leaves_iriReference {iri : String} (h : iriReference cs = .ok (iri, rest)) :
    Leaves 1 cs rest := by
  obtain ⟨more, rfl, hbody⟩ := body_of_iriReference h
  rw [hbody.reference_eq.1]
  exact ((leaves_append.trans Leaves.refl.cons).weaken (Nat.zero_le _)).cons

/-- The colon behind the name is left. -/
lemma leaves_prefixName {bad : Char → Fault} {missing : Fault} {name : String}
    (h : prefixName bad missing cs = .ok (name, rest)) : Leaves 0 cs rest ∧ at' rest 0 = ':' := by
  obtain ⟨⟨w, -, rfl⟩, more, rfl⟩ := cut_of_prefixName h
  exact ⟨leaves_append.weaken (Nat.zero_le _), rfl⟩

lemma leaves_localName : Leaves 0 cs (localName cs).2 := leaves_drop

lemma leaves_blankLabel {label : String} (h : blankLabel cs = .ok (label, rest)) :
    Leaves 1 cs rest := by
  unfold blankLabel at h
  extract_lets run word more at h
  split_ifs at h with hne
  obtain ⟨-, rfl⟩ := Prod.mk.inj (Except.ok.inj h)
  have hle : word.length ≤ cs.length :=
    (List.length_take_le _ _).trans ((Nat.sub_le _ _).trans (List.takeWhile_prefix _).length_le)
  have hpos : 0 < word.length := List.length_pos_iff.2 (by simpa using hne)
  exact ⟨List.drop_suffix _ _, by rw [List.length_drop]; omega⟩

lemma leaves_stringBody (h : stringBody mark long cs = .ok (s, rest)) : Leaves 1 cs rest := by
  fun_induction stringBody mark long cs generalizing s with
  | case1 => cases h
  | case2 c cs =>
    cases h
    exact leaves_drop.cons
  | case3 =>
    cases h
    exact Leaves.refl.cons
  | case4 => cases h
  | case5 => cases h
  | case6 => cases h
  | case7 e cs x hx _ _ _ ih =>
    obtain ⟨⟨s', rest'⟩, hbody, heq⟩ := map_eq_ok.1 h
    cases heq
    exact (ih hbody).cons.cons.weaken (by omega)
  | case8 c cs _ _ _ _ _ ih =>
    obtain ⟨⟨s', rest'⟩, hbody, heq⟩ := map_eq_ok.1 h
    cases heq
    exact (ih hbody).cons.weaken (by omega)

lemma leaves_quoted {lexical : String} (h : quoted cs = .ok (lexical, rest)) :
    Leaves 1 cs rest := by
  obtain ⟨⟨s, rest'⟩, hbody, heq⟩ := map_eq_ok.1 h
  cases heq
  exact leaves_drop.trans (leaves_stringBody hbody)

/-- A number has a digit or the point of a fraction. -/
lemma leaves_numeral (h : numeral cs = .ok (t, rest)) : Leaves 1 cs rest := by
  unfold numeral at h
  extract_lets signed whole fractional fraction written mark digits after at h
  have hsigned : Leaves 0 cs signed := leaves_ite_drop
  have hwhole : Leaves 0 signed whole := leaves_dropWhile
  split at h
  · cases h
  rename_i hdigits
  have hfraction : Leaves 1 signed fraction := by
    show Leaves 1 signed (if fractional = true then (whole.drop 1).dropWhile _ else whole)
    split
    · rename_i hpoint
      simp only [fractional, Bool.and_eq_true, beq_iff_eq] at hpoint
      exact hwhole.trans ((leaves_drop_one hpoint.1 (by decide)).trans leaves_dropWhile)
    · rename_i hwhole'
      have hne : whole.length ≠ signed.length := by simpa [hwhole'] using hdigits
      exact ⟨hwhole.suffix, by have := hwhole.length; omega⟩
  split at h
  · split at h
    · cases h
    obtain ⟨-, rfl⟩ := Prod.mk.inj (Except.ok.inj h)
    have hmark : Leaves 0 fraction mark := leaves_drop
    have hexponent : Leaves 0 mark digits := leaves_ite_drop
    exact (hsigned.trans hfraction).trans ((hmark.trans hexponent).trans leaves_dropWhile)
  · obtain ⟨-, rfl⟩ := Prod.mk.inj (Except.ok.inj h)
    exact hsigned.trans hfraction

lemma leaves_truth? (h : truth? cs = some (t, rest)) : Leaves 1 cs rest := by
  unfold truth? at h
  dsimp only at h
  split at h
  · rename_i more hmore
    split at h <;> cases h
    rw [afterPrefix?_eq_some_iff.1 hmore]
    exact leaves_append.weaken (by decide)
  · split at h
    · rename_i more hmore
      split at h <;> cases h
      rw [afterPrefix?_eq_some_iff.1 hmore]
      exact leaves_append.weaken (by decide)
    · cases h

namespace Step

variable {α β : Type} {x : Step α} {f : α → Step β} {p q : Progress}
  {R S T : Progress → Progress → Prop}

/-- Where a step succeeds, it goes to a state that is related to the one it begins in. -/
def Goes (R : Progress → Progress → Prop) (x : Step α) (p : Progress) : Prop :=
  ∀ a q, Gives x p a q → R p q

/-- Text is used up, and nothing else changes. -/
structure Uses (k : Nat) (p q : Progress) : Prop where
  reader : q.reader = p.reader
  graph : q.graph = p.graph
  rest : Leaves k p.rest q.rest

/-- Text is used up. -/
def Cuts (k : Nat) (p q : Progress) : Prop := Leaves k p.rest q.rest

lemma Uses.refl : Uses 0 p p := ⟨rfl, rfl, .refl⟩

/-! ### Rules -/

lemma goes_throw {fault : Fault} : Goes R (throw fault : Step α) p := by
  rintro a q ⟨⟩

lemma goes_modify {g : Progress → Progress} (h : R p (g p)) :
    Goes R (modify g : Step Unit) p := by
  rintro a q ⟨⟩
  exact h

lemma Goes.mono (h : Goes R x p) (hS : ∀ q, R p q → S p q) : Goes S x p :=
  fun a q hx => hS q (h a q hx)

lemma Goes.bind (hx : Goes R x p) (hf : ∀ a q, Gives x p a q → Goes S (f a) q)
    (hT : ∀ q s, R p q → S q s → T p s) : Goes T (x >>= f) p := by
  intro b s h
  obtain ⟨a, q, hxp, hfq⟩ := of_run_bind h
  exact hT q s (hx a q hxp) (hf a q hxp b s hfq)

lemma uses_pure {a : α} : Goes (Uses 0) (pure a) p := by
  rintro b q ⟨⟩
  exact .refl

lemma cuts_pure {a : α} : Goes (Cuts 0) (pure a) p := by
  rintro b q ⟨⟩
  exact .refl

lemma Goes.uses (hx : Goes (Uses j) x p) (hf : ∀ a q, Gives x p a q → Goes (Uses k) (f a) q) :
    Goes (Uses (k + j)) (x >>= f) p :=
  hx.bind hf fun _ _ h h' =>
    ⟨h'.reader.trans h.reader, h'.graph.trans h.graph, h.rest.trans h'.rest⟩

lemma Goes.cuts (hx : Goes (Cuts j) x p) (hf : ∀ a q, Gives x p a q → Goes (Cuts k) (f a) q) :
    Goes (Cuts (k + j)) (x >>= f) p :=
  hx.bind hf fun _ _ => Leaves.trans

lemma Goes.weaken (hx : Goes (Uses k) x p) (hj : j ≤ k) : Goes (Uses j) x p :=
  hx.mono fun _ h => ⟨h.reader, h.graph, h.rest.weaken hj⟩

lemma Goes.toCuts (hx : Goes (Uses k) x p) : Goes (Cuts k) x p := hx.mono fun _ => Uses.rest

lemma Goes.weakenCuts (hx : Goes (Cuts k) x p) (hj : j ≤ k) : Goes (Cuts j) x p :=
  hx.mono fun _ h => Leaves.weaken h hj

/-! ### Characters -/

variable {cs : List Char}

lemma uses_get : Goes (Uses 0) (get : Step Progress) p := by
  rintro a q ⟨⟩
  exact .refl

lemma uses_rest : Goes (Uses 0) Step.rest p := by
  rintro a q ⟨⟩
  exact .refl

lemma uses_setRest (h : Leaves k p.rest cs) : Goes (Uses k) (setRest cs) p :=
  goes_modify ⟨rfl, rfl, h⟩

lemma uses_drop : Goes (Uses 0) (drop n) p := goes_modify ⟨rfl, rfl, leaves_drop⟩

lemma uses_blanks : Goes (Uses 0) blanks p := goes_modify ⟨rfl, rfl, leaves_skipFrom⟩

lemma uses_ahead : Goes (Uses 0) (ahead n) p := by
  rintro a q ⟨⟩
  exact .refl

lemma uses_atEnd : Goes (Uses 0) atEnd p := by
  rintro a q ⟨⟩
  exact .refl

lemma uses_fuel : Goes (Uses 0) fuel p := by
  rintro a q ⟨⟩
  exact .refl

/-- What a lexer that succeeds leaves is what is left. -/
lemma gives_lex_iff {l : Lexer α} {a : α} :
    Gives (lex l) p a q ↔ ∃ cs, l p.rest = .ok (a, cs) ∧ q = { p with rest := cs } := by
  refine ⟨fun h => ?_, fun ⟨cs, hl, hq⟩ => hq ▸ gives_lex hl⟩
  obtain ⟨_, _, ⟨⟩, h⟩ := of_run_bind h
  split at h
  · rename_i b cs hl
    obtain ⟨_, _, ⟨⟩, ⟨⟩⟩ := of_run_bind h
    exact ⟨cs, hl, rfl⟩
  · obtain ⟨_, _, _, ⟨⟩⟩ := of_run_bind h

lemma uses_lex {l : Lexer α} (h : ∀ a cs, l p.rest = .ok (a, cs) → Leaves k p.rest cs) :
    Goes (Uses k) (lex l) p := by
  intro a q hx
  obtain ⟨cs, hl, rfl⟩ := gives_lex_iff.1 hx
  exact ⟨rfl, rfl, h a cs hl⟩

lemma uses_expect {wanted : Char} : Goes (Uses 1) (expect wanted) p := by
  refine uses_blanks.uses fun _ _ _ => uses_rest.uses ?_
  rintro cs q ⟨⟩
  split
  · exact goes_throw
  · rename_i c cs hcs
    split
    · exact uses_setRest (hcs ▸ Leaves.refl.cons)
    · exact goes_throw

/-! ### Terms -/

lemma uses_reference : Goes (Uses 1) reference p :=
  (uses_lex fun _ _ => leaves_iriReference).uses fun _ _ _ => uses_get.uses fun _ _ _ => uses_pure

lemma uses_name : Goes (Uses 1) name p := by
  refine uses_blanks.uses fun _ _ _ => uses_rest.uses fun cs q _ => ?_
  split
  · exact goes_throw
  · exact uses_reference.uses fun _ _ _ => uses_pure
  · -- the colon behind the prefix
    refine (uses_lex fun _ _ h => (leaves_prefixName h).1).uses fun before q' hbefore => ?_
    obtain ⟨cs, hl, rfl⟩ := gives_lex_iff.1 hbefore
    have hcolon : Goes (Uses 1) (drop 1) { q with rest := cs } :=
      goes_modify ⟨rfl, rfl, leaves_drop_one (leaves_prefixName hl).2 (by decide)⟩
    refine hcolon.uses fun _ _ _ => uses_rest.uses ?_
    rintro cs q ⟨⟩
    refine (uses_setRest leaves_localName).uses fun _ _ _ => uses_get.uses fun _ _ _ => ?_
    split
    · exact goes_throw
    · exact uses_pure

lemma uses_labelled : Goes (Uses 1) labelled p :=
  uses_drop.uses fun _ _ _ => (uses_lex fun _ _ => leaves_blankLabel).uses fun _ _ _ =>
    uses_get.uses fun _ _ _ => uses_pure

lemma uses_literal : Goes (Uses 1) literal p := by
  refine (uses_lex fun _ _ => leaves_quoted).uses fun _ _ _ => uses_rest.uses ?_
  rintro cs q ⟨⟩
  split
  · rename_i cs hcs
    dsimp only
    refine Goes.uses (j := 0) (uses_setRest ?_) fun _ _ _ => uses_pure
    exact hcs ▸ (leaves_dropWhile.cons.weaken (Nat.zero_le _))
  · rename_i cs hcs
    refine Goes.uses (j := 0) (uses_setRest ?_) fun _ _ _ =>
      (uses_name.weaken (Nat.zero_le 1)).uses fun _ _ _ => uses_pure
    exact hcs ▸ (Leaves.refl.cons.cons.weaken (Nat.zero_le _))
  · exact uses_pure

lemma uses_verb : Goes (Uses 0) verb p := by
  refine uses_blanks.uses fun _ _ _ => uses_ahead.uses fun _ _ _ => uses_ahead.uses fun _ _ _ => ?_
  split
  · exact uses_drop.uses fun _ _ _ => uses_pure
  · exact uses_name.weaken (Nat.zero_le 1)

/-! ### Triples -/

lemma cuts_modify {g : Progress → Progress} (h : ∀ p, (g p).rest = p.rest) :
    Goes (Cuts 0) (modify g : Step Unit) p :=
  goes_modify (show Leaves 0 _ _ from (h p).symm ▸ .refl)

lemma cuts_emit {s p' o : Term} : Goes (Cuts 0) (emit s p' o) p := cuts_modify fun _ => rfl

lemma cuts_freshBlank : Goes (Cuts 0) freshBlank p :=
  uses_get.toCuts.cuts fun _ _ _ => (cuts_modify fun _ => rfl).cuts fun _ _ _ => cuts_pure

lemma cuts_mapM {l : List β} {g : β → Step α} (h : ∀ b ∈ l, ∀ p, Goes (Cuts 0) (g b) p) :
    Goes (Cuts 0) (l.mapM g) p := by
  induction l generalizing p with
  | nil => exact cuts_pure
  | cons b l ih =>
    rw [List.mapM_cons]
    refine (h b (by simp) p).cuts fun _ _ _ => ?_
    exact (ih fun c hc => h c (by simp [hc])).cuts fun _ _ _ => cuts_pure

lemma cuts_emitCells {cells : List (Term × Term)} : Goes (Cuts 0) (emitCells cells) p := by
  induction cells generalizing p with
  | nil => exact cuts_pure
  | cons c more ih => exact cuts_emit.cuts fun _ _ _ => cuts_emit.cuts fun _ _ _ => ih

lemma cuts_collectionOf {items : List Term} : Goes (Cuts 0) (collectionOf items) p :=
  (cuts_mapM fun _ _ _ => cuts_freshBlank).cuts fun _ _ _ =>
    cuts_emitCells.cuts fun _ _ _ => cuts_pure

/-- What the four readers that call each other use up. -/
structure Cutting (n : Nat) : Prop where
  object : ∀ p, Goes (Cuts 1) (object n) p
  items : ∀ p, Goes (Cuts 0) (items n) p
  objects : ∀ s p' p, Goes (Cuts 0) (objects n s p') p
  properties : ∀ s p, Goes (Cuts 0) (properties n s) p

section Cutting

variable (h : Cutting n)

include h

lemma Cutting.object_succ : Goes (Cuts 1) (Step.object (n + 1)) p := by
  rw [Step.object]
  refine uses_blanks.toCuts.cuts fun _ p _ => uses_ahead.toCuts.cuts ?_
  rintro c q ⟨⟩
  refine uses_ahead.toCuts.cuts ?_
  rintro d q ⟨⟩
  have hfirst {c : Char} (hc : at' p.rest 0 = c) (hne : c ≠ '\x00') : Goes (Cuts 1) (drop 1) p :=
    goes_modify (leaves_drop_one hc hne)
  split_ifs with h₁ h₂ h₃ h₄ h₅
  · refine (hfirst (beq_iff_eq.1 h₁) (by decide)).cuts fun _ _ _ => ?_
    refine cuts_freshBlank.cuts fun node _ _ => uses_blanks.toCuts.cuts fun _ _ _ => ?_
    have hclose : ∀ q, Goes (Cuts 0) (do expect ']'; pure node) q := fun q =>
      (uses_expect.toCuts.weakenCuts (Nat.zero_le 1)).cuts fun _ _ _ => cuts_pure
    refine uses_ahead.toCuts.cuts fun e _ _ => ?_
    dsimp only
    split
    · exact (h.properties node _).cuts fun _ _ _ => hclose _
    · exact hclose _
  · refine (hfirst (beq_iff_eq.1 h₂) (by decide)).cuts fun _ _ _ => ?_
    exact uses_blanks.toCuts.cuts fun _ _ _ => (h.items _).cuts fun _ _ _ => cuts_collectionOf
  · exact uses_labelled.toCuts
  · exact uses_literal.toCuts
  · exact (uses_lex fun _ _ => leaves_numeral).toCuts
  · refine uses_rest.toCuts.cuts ?_
    rintro cs q ⟨⟩
    split
    · rename_i t cs htruth
      exact Goes.cuts (uses_setRest (leaves_truth? htruth)).toCuts fun _ _ _ => cuts_pure
    · exact uses_name.toCuts

lemma Cutting.items_succ : Goes (Cuts 0) (Step.items (n + 1)) p := by
  rw [Step.items]
  refine uses_ahead.toCuts.cuts fun c _ _ => ?_
  split
  · exact uses_drop.toCuts.cuts fun _ _ _ => cuts_pure
  · refine uses_atEnd.toCuts.cuts fun e _ _ => ?_
    split
    · exact goes_throw
    · refine ((h.object _).weakenCuts (Nat.zero_le 1)).cuts fun t _ _ => ?_
      exact uses_blanks.toCuts.cuts fun _ _ _ => (h.items _).cuts fun _ _ _ => cuts_pure

lemma Cutting.objects_succ {s p' : Term} : Goes (Cuts 0) (Step.objects (n + 1) s p') p := by
  rw [Step.objects]
  refine ((h.object _).weakenCuts (Nat.zero_le 1)).cuts fun o _ _ => ?_
  refine cuts_emit.cuts fun _ _ _ => uses_blanks.toCuts.cuts fun _ _ _ => ?_
  refine uses_ahead.toCuts.cuts fun c _ _ => ?_
  split
  · exact uses_drop.toCuts.cuts fun _ _ _ => h.objects s p' _
  · exact cuts_pure

lemma Cutting.properties_succ {s : Term} : Goes (Cuts 0) (Step.properties (n + 1) s) p := by
  rw [Step.properties]
  refine uses_verb.toCuts.cuts fun p' _ _ => (h.objects s p' _).cuts fun _ _ _ => ?_
  refine uses_blanks.toCuts.cuts fun _ _ _ => uses_ahead.toCuts.cuts fun c _ _ => ?_
  split
  · have hsemicolons : ∀ q, Goes (Cuts 0)
        (modify fun p => { p with rest := skipSemicolons p.rest } : Step Unit) q :=
      fun q => goes_modify leaves_skipFrom
    refine (hsemicolons _).cuts fun _ _ _ => uses_ahead.toCuts.cuts fun next _ _ => ?_
    refine uses_atEnd.toCuts.cuts fun e _ _ => ?_
    split
    · exact cuts_pure
    · exact h.properties s _
  · exact cuts_pure

end Cutting

/-- The readers call each other with less fuel only, so the induction is on the fuel of all four. -/
lemma cutting (n : Nat) : Cutting n := by
  induction n with
  | zero =>
    exact ⟨fun _ => goes_throw, fun _ => goes_throw, fun _ _ _ => goes_throw,
      fun _ _ => goes_throw⟩
  | succ n ih =>
    exact ⟨fun _ => ih.object_succ, fun _ => ih.items_succ, fun _ _ _ => ih.objects_succ,
      fun _ _ => ih.properties_succ⟩

/-! ### Statements -/

lemma leaves_afterKeyword? {keyword : String} (h : afterKeyword? keyword cs = some rest) :
    Leaves 0 cs rest := by
  unfold afterKeyword? at h
  dsimp only at h
  split_ifs at h
  cases h
  exact leaves_drop

lemma cuts_declaration : Goes (Cuts 1) declaration p := by
  refine uses_blanks.toCuts.cuts fun _ _ _ => ?_
  refine (uses_lex fun _ _ h => (leaves_prefixName h).1).toCuts.cuts fun _ _ _ => ?_
  refine uses_drop.toCuts.cuts fun _ _ _ => uses_blanks.toCuts.cuts fun _ _ _ => ?_
  exact uses_reference.toCuts.cuts fun _ _ _ => cuts_modify fun _ => rfl

lemma cuts_baseDeclaration : Goes (Cuts 1) baseDeclaration p :=
  uses_blanks.toCuts.cuts fun _ _ _ => uses_reference.toCuts.cuts fun _ _ _ =>
    cuts_modify fun _ => rfl

lemma cuts_directive : Goes (Cuts 1) directive p := by
  refine uses_drop.toCuts.cuts fun _ _ _ => uses_rest.toCuts.cuts ?_
  rintro cs q ⟨⟩
  refine Goes.cuts (j := 0) (uses_setRest leaves_dropWhile).toCuts fun _ _ _ => ?_
  have hpoint : ∀ q, Goes (Cuts 0) (expect '.') q :=
    fun _ => uses_expect.toCuts.weakenCuts (Nat.zero_le 1)
  dsimp only
  split_ifs
  · exact cuts_declaration.cuts fun _ _ _ => hpoint _
  · exact cuts_baseDeclaration.cuts fun _ _ _ => hpoint _
  · exact goes_throw

lemma cuts_triples : Goes (Cuts 0) triples p := by
  refine uses_blanks.toCuts.cuts fun _ _ _ => uses_fuel.toCuts.cuts fun n _ _ => ?_
  refine uses_ahead.toCuts.cuts fun c _ _ => ?_
  have hnode : ∀ q, Goes (Cuts 0) (object n) q :=
    fun q => ((cutting n).object q).weakenCuts (Nat.zero_le 1)
  have hname : ∀ q, Goes (Cuts 0) name q := fun _ => uses_name.toCuts.weakenCuts (Nat.zero_le 1)
  split_ifs
  · refine (hnode _).cuts fun s _ _ => uses_blanks.toCuts.cuts fun _ _ _ => ?_
    refine uses_ahead.toCuts.cuts fun e _ _ => ?_
    split_ifs
    · exact (cutting n).properties s _
    · exact cuts_pure
  · refine uses_ahead.toCuts.cuts fun d _ _ => ?_
    split_ifs
    · exact (hnode _).cuts fun s _ _ => (cutting n).properties s _
    · exact (hname _).cuts fun s _ _ => (cutting n).properties s _

/-- A statement is never read from nothing. -/
lemma cuts_statement : Goes (Cuts 1) statement p := by
  refine uses_rest.toCuts.cuts ?_
  rintro cs q ⟨⟩
  split_ifs
  · exact cuts_directive
  split
  · rename_i after h
    exact Goes.cuts (j := 0) (uses_setRest (leaves_afterKeyword? h)).toCuts
      fun _ _ _ => cuts_declaration
  split
  · rename_i after h
    exact Goes.cuts (j := 0) (uses_setRest (leaves_afterKeyword? h)).toCuts
      fun _ _ _ => cuts_baseDeclaration
  · exact cuts_triples.cuts fun _ _ _ => uses_expect.toCuts

end Step

end Semlift.Rdf.Turtle
