import Mathlib.Tactic.Lemma
import Mathlib.Tactic.SplitIfs
import Semlift.Rdf.Turtle.Reader

/-!
What reading keeps. A step keeps a property of the triples so far when it carries it over each time
it succeeds, and then its result may be known to have a property too; the prefix that the reader has
for blank nodes never changes. Names, literals and single characters leave the triples alone, so all
that counts is which triples are given off. Their predicates are names and their blank nodes have
the prefix of the reader; those that read a list of predicates and objects are about its subject or
about a blank node.
-/

namespace Semlift.Rdf

/-- A blank node under a prefix. -/
def Term.Under (pre : String) (t : Term) : Prop := ∃ label, t = .blank (pre ++ label)

/-- If a term is a blank node, then one under the prefix. -/
def Term.Own (pre : String) (t : Term) : Prop := t.isBlank → t.Under pre

/-- Every triple is about the subject or about a blank node. -/
def Graph.About (subject : Term) (g : Graph) : Prop :=
  ∀ t ∈ g.triples, t.subject = subject ∨ t.subject.isBlank

/-- Subjects are allowed, predicates are names, and the objects that are blank have the prefix. -/
structure Triple.Made (allowed : Term → Prop) (pre : String) (t : Triple) : Prop where
  subject : allowed t.subject
  predicate : t.predicate.isIri
  object : t.object.Own pre

def Graph.Made (allowed : Term → Prop) (pre : String) (g : Graph) : Prop :=
  ∀ t ∈ g.triples, t.Made allowed pre

lemma Term.Under.isBlank {pre : String} {t : Term} (h : t.Under pre) : t.isBlank := by
  obtain ⟨label, rfl⟩ := h
  rfl

lemma Term.own_of_isIri {pre : String} {t : Term} (h : t.isIri) : t.Own pre := by
  intro hb
  cases t <;> simp [Term.isIri, Term.isBlank] at h hb

lemma Term.own_of_isLiteral {pre : String} {t : Term} (h : t.isLiteral) : t.Own pre := by
  intro hb
  cases t <;> simp [Term.isLiteral, Term.isBlank] at h hb

namespace Turtle

lemma isLiteral_of_numeral {cs rest : List Char} {t : Term} (h : numeral cs = .ok (t, rest)) :
    t.isLiteral := by
  unfold numeral at h
  dsimp only at h
  split_ifs at h <;> cases h <;> rfl

lemma isLiteral_of_truth? {cs rest : List Char} {t : Term} (h : truth? cs = some (t, rest)) :
    t.isLiteral := by
  unfold truth? at h
  dsimp only at h
  split at h
  · split at h <;> cases h
    rfl
  · split at h
    · split at h <;> cases h
      rfl
    · cases h

namespace Step

variable {pre : String} {J : Graph → Prop} {α β : Type} {x : Step α} {f : α → Step β}
  {Q : α → Prop} {R : β → Prop} {cs : List Char}

/-- With the prefix for blank nodes, a step carries over a property of the triples so far, and its
result has a property. -/
def Keeps (pre : String) (J : Graph → Prop) (x : Step α) (Q : α → Prop) : Prop :=
  ∀ p q a, x.run.run p = (.ok a, q) → p.reader.blankPrefix = pre → J p.graph →
    q.reader.blankPrefix = pre ∧ J q.graph ∧ Q a

/-! ### Rules -/

lemma keeps_pure {a : α} (h : Q a) : Keeps pre J (pure a) Q := by
  rintro p q b ⟨⟩ hpre hp
  exact ⟨hpre, hp, h⟩

lemma keeps_throw {fault : Fault} : Keeps pre J (throw fault : Step α) Q := by
  rintro p q a ⟨⟩

/-- Two steps in a row succeed when the first one does and the second one from there on. -/
lemma of_run_bind {p r : Progress} {b : β} (h : (x >>= f).run.run p = (.ok b, r)) :
    ∃ a q, x.run.run p = (.ok a, q) ∧ (f a).run.run q = (.ok b, r) := by
  simp only [ExceptT.run_bind, StateT.run_bind] at h
  cases hxp : x.run.run p with
  | mk y q =>
    rw [hxp] at h
    cases y with
    | error fault => cases h
    | ok a => exact ⟨a, q, rfl, h⟩

lemma Keeps.bind (hx : Keeps pre J x Q) (hf : ∀ a, Q a → Keeps pre J (f a) R) :
    Keeps pre J (x >>= f) R := by
  intro p r b h hpre hp
  obtain ⟨a, q, hxp, hfq⟩ := of_run_bind h
  obtain ⟨hpre, hq, ha⟩ := hx p q a hxp hpre hp
  exact hf a ha q r b hfq hpre hq

lemma Keeps.seq (hx : Keeps pre J x Q) (hf : ∀ a, Keeps pre J (f a) R) :
    Keeps pre J (x >>= f) R :=
  hx.bind fun a _ => hf a

lemma Keeps.weaken {Q' : α → Prop} (hx : Keeps pre J x Q) (h : ∀ a, Q a → Q' a) :
    Keeps pre J x Q' := by
  intro p q a hpq hpre hp
  obtain ⟨hpre, hq, ha⟩ := hx p q a hpq hpre hp
  exact ⟨hpre, hq, h a ha⟩

lemma keeps_get : Keeps pre J (get : Step Progress) fun p => p.reader.blankPrefix = pre := by
  rintro p q a ⟨⟩ hpre hp
  exact ⟨hpre, hp, hpre⟩

lemma keeps_modify {g : Progress → Progress}
    (hpre : ∀ p, (g p).reader.blankPrefix = p.reader.blankPrefix)
    (h : ∀ p, J p.graph → J (g p).graph) :
    Keeps pre J (modify g : Step Unit) fun _ => True := by
  rintro p q a ⟨⟩ hp hj
  exact ⟨(hpre p).trans hp, h p hj, trivial⟩

lemma keeps_mapM {l : List β} {g : β → Step α} (h : ∀ b ∈ l, Keeps pre J (g b) Q) :
    Keeps pre J (l.mapM g) fun bs => ∀ a ∈ bs, Q a := by
  induction l with
  | nil => exact keeps_pure (by simp)
  | cons b l ih =>
    rw [List.mapM_cons]
    refine (h b (by simp)).bind fun a ha => ?_
    refine (ih fun c hc => h c (by simp [hc])).bind fun as has => keeps_pure ?_
    simpa using ⟨ha, has⟩

/-! ### Steps that leave the graph alone -/

lemma keeps_rest : Keeps pre J rest fun _ => True :=
  keeps_get.seq fun _ => keeps_pure trivial

lemma keeps_setRest : Keeps pre J (setRest cs) fun _ => True :=
  keeps_modify (fun _ => rfl) fun _ h => h

lemma keeps_drop {n : Nat} : Keeps pre J (drop n) fun _ => True :=
  keeps_modify (fun _ => rfl) fun _ h => h

lemma keeps_blanks : Keeps pre J blanks fun _ => True :=
  keeps_modify (fun _ => rfl) fun _ h => h

lemma keeps_ahead {n : Nat} : Keeps pre J (ahead n) fun _ => True :=
  keeps_get.seq fun _ => keeps_pure trivial

lemma keeps_atEnd : Keeps pre J atEnd fun _ => True :=
  keeps_get.seq fun _ => keeps_pure trivial

lemma keeps_fuel : Keeps pre J fuel fun _ => True :=
  keeps_rest.seq fun _ => keeps_pure trivial

/-- What a lexer reads has the property that all it reads has. -/
lemma keeps_lex {l : Lexer α} (h : ∀ cs a more, l cs = .ok (a, more) → Q a) :
    Keeps pre J (lex l) Q := by
  refine keeps_rest.seq fun cs => ?_
  split
  · rename_i a more hl
    exact keeps_setRest.seq fun _ => keeps_pure (h _ _ _ hl)
  · exact keeps_setRest.seq fun _ => keeps_throw

lemma keeps_lexed {l : Lexer α} : Keeps pre J (lex l) fun _ => True :=
  keeps_lex fun _ _ _ _ => trivial

lemma keeps_expect {wanted : Char} : Keeps pre J (expect wanted) fun _ => True := by
  refine keeps_blanks.seq fun _ => keeps_rest.seq fun cs => ?_
  split
  · exact keeps_throw
  · split
    · exact keeps_setRest
    · exact keeps_throw

lemma keeps_freshBlank : Keeps pre J freshBlank fun t => t.Under pre := by
  refine keeps_get.bind fun p hp => ?_
  dsimp only
  refine Keeps.seq (keeps_modify (fun _ => rfl) fun _ h => h) fun _ => keeps_pure ?_
  exact ⟨"b" ++ Number.natText p.reader.nextBlank, by rw [hp, String.append_assoc]⟩

lemma keeps_reference : Keeps pre J reference fun _ => True :=
  keeps_lexed.seq fun _ => keeps_get.seq fun _ => keeps_pure trivial

lemma keeps_name : Keeps pre J name fun t => t.isIri := by
  refine keeps_blanks.seq fun _ => keeps_rest.seq fun cs => ?_
  split
  · exact keeps_throw
  · exact keeps_reference.seq fun _ => keeps_pure rfl
  · refine keeps_lexed.seq fun before => keeps_drop.seq fun _ => keeps_rest.seq fun cs => ?_
    refine keeps_setRest.seq fun _ => keeps_get.seq fun p => ?_
    split
    · exact keeps_throw
    · exact keeps_pure rfl

lemma keeps_labelled : Keeps pre J labelled fun t => t.Under pre := by
  refine keeps_drop.seq fun _ => keeps_lexed.seq fun label => keeps_get.bind fun p hp => ?_
  exact keeps_pure ⟨label, by rw [hp]⟩

lemma keeps_literal : Keeps pre J literal fun t => t.isLiteral := by
  refine keeps_lexed.seq fun lexical => keeps_rest.seq fun cs => ?_
  split
  · exact keeps_setRest.seq fun _ => keeps_pure rfl
  · exact keeps_setRest.seq fun _ => keeps_name.seq fun _ => keeps_pure rfl
  · exact keeps_pure rfl

lemma keeps_verb : Keeps pre J verb fun t => t.isIri := by
  refine keeps_blanks.seq fun _ => keeps_ahead.seq fun after => keeps_ahead.seq fun c => ?_
  split
  · exact keeps_drop.seq fun _ => keeps_pure rfl
  · exact keeps_name

/-! ### Triples -/

variable {allowed : Term → Prop}

lemma keeps_emit {s p o : Term} (hs : allowed s) (hp : p.isIri) (ho : o.Own pre) :
    Keeps pre (Graph.Made allowed pre) (emit s p o) fun _ => True := by
  refine keeps_modify (fun _ => rfl) fun q hq t ht => ?_
  rcases Graph.mem_add.1 ht with ht | rfl
  · exact hq t ht
  · exact ⟨hs, hp, ho⟩

section Blanks

variable (hblank : ∀ t : Term, t.Under pre → allowed t)

include hblank

lemma keeps_emitCells {cells : List (Term × Term)}
    (h : ∀ c ∈ cells, c.1.Under pre ∧ c.2.Own pre) :
    Keeps pre (Graph.Made allowed pre) (emitCells cells) fun _ => True := by
  induction cells with
  | nil => exact keeps_pure trivial
  | cons c more ih =>
    obtain ⟨hcell, hitem⟩ := h c (by simp)
    have hc : allowed c.1 := hblank c.1 hcell
    refine (keeps_emit hc rfl hitem).seq fun _ => Keeps.seq (keeps_emit hc rfl ?_) fun _ =>
      ih fun d hd => h d (by simp [hd])
    cases more with
    | nil => exact Term.own_of_isIri rfl
    | cons d more => exact fun _ => (h d (by simp)).1

lemma keeps_collectionOf {items : List Term} (h : ∀ t ∈ items, t.Own pre) :
    Keeps pre (Graph.Made allowed pre) (collectionOf items) (Term.Own pre) := by
  refine (keeps_mapM fun _ _ => keeps_freshBlank).bind fun cells hcells => ?_
  refine (keeps_emitCells hblank fun c hc => ?_).seq fun _ => keeps_pure ?_
  · obtain ⟨hcell, hitem⟩ := List.of_mem_zip hc
    exact ⟨hcells _ hcell, h _ hitem⟩
  · cases cells with
    | nil => exact Term.own_of_isIri rfl
    | cons c more => exact fun _ => hcells c (by simp)

end Blanks

/-- What the four readers that call each other keep. -/
structure Concern (allowed : Term → Prop) (pre : String) (n : Nat) : Prop where
  object : Keeps pre (Graph.Made allowed pre) (object n) (Term.Own pre)
  items : Keeps pre (Graph.Made allowed pre) (items n) fun ts => ∀ t ∈ ts, t.Own pre
  objects : ∀ s p, allowed s → p.isIri →
    Keeps pre (Graph.Made allowed pre) (objects n s p) fun _ => True
  properties : ∀ s, allowed s → Keeps pre (Graph.Made allowed pre) (properties n s) fun _ => True

section Concern

variable {n : Nat} (hblank : ∀ t : Term, t.Under pre → allowed t) (h : Concern allowed pre n)

include h

include hblank in
lemma Concern.object_succ :
    Keeps pre (Graph.Made allowed pre) (Step.object (n + 1)) (Term.Own pre) := by
  rw [Step.object]
  refine keeps_blanks.seq fun _ => keeps_ahead.seq fun c => keeps_ahead.seq fun d => ?_
  split_ifs
  · -- brackets: the triples inside are about a fresh blank node
    refine keeps_drop.seq fun _ => keeps_freshBlank.bind fun node hnode => ?_
    have hclose : Keeps pre (Graph.Made allowed pre) (do expect ']'; pure node) (Term.Own pre) :=
      keeps_expect.seq fun _ => keeps_pure fun _ => hnode
    refine keeps_blanks.seq fun _ => keeps_ahead.seq fun e => ?_
    dsimp only
    split
    · exact (h.properties node (hblank node hnode)).seq fun _ => hclose
    · exact hclose
  · exact keeps_drop.seq fun _ => keeps_blanks.seq fun _ => h.items.bind fun ts hts =>
      keeps_collectionOf hblank hts
  · exact keeps_labelled.weaken fun _ ht _ => ht
  · exact keeps_literal.weaken fun _ => Term.own_of_isLiteral
  · exact keeps_lex fun _ _ _ hl => Term.own_of_isLiteral (isLiteral_of_numeral hl)
  · refine keeps_rest.seq fun cs => ?_
    split
    · rename_i t more htruth
      have hliteral := isLiteral_of_truth? htruth
      exact keeps_setRest.seq fun _ => keeps_pure (Term.own_of_isLiteral hliteral)
    · exact keeps_name.weaken fun _ => Term.own_of_isIri

lemma Concern.items_succ : Keeps pre (Graph.Made allowed pre) (Step.items (n + 1))
    fun ts => ∀ t ∈ ts, t.Own pre := by
  rw [Step.items]
  refine keeps_ahead.seq fun c => ?_
  split
  · exact keeps_drop.seq fun _ => keeps_pure (by simp)
  · refine keeps_atEnd.seq fun e => ?_
    split
    · exact keeps_throw
    · refine h.object.bind fun t ht => keeps_blanks.seq fun _ => h.items.bind fun ts hts => ?_
      exact keeps_pure (by simpa using ⟨ht, hts⟩)

lemma Concern.objects_succ {s p : Term} (hs : allowed s) (hp : p.isIri) :
    Keeps pre (Graph.Made allowed pre) (Step.objects (n + 1) s p) fun _ => True := by
  rw [Step.objects]
  refine h.object.bind fun o ho => (keeps_emit hs hp ho).seq fun _ => keeps_blanks.seq fun _ => ?_
  refine keeps_ahead.seq fun c => ?_
  split
  · exact keeps_drop.seq fun _ => h.objects s p hs hp
  · exact keeps_pure trivial

lemma Concern.properties_succ {s : Term} (hs : allowed s) :
    Keeps pre (Graph.Made allowed pre) (Step.properties (n + 1) s) fun _ => True := by
  rw [Step.properties]
  refine keeps_verb.bind fun p hp => (h.objects s p hs hp).seq fun _ => keeps_blanks.seq fun _ => ?_
  refine keeps_ahead.seq fun c => ?_
  split
  · refine Keeps.seq (keeps_modify (fun _ => rfl) fun _ h => h) fun _ => ?_
    refine keeps_ahead.seq fun next => keeps_atEnd.seq fun e => ?_
    split
    · exact keeps_pure trivial
    · exact h.properties s hs
  · exact keeps_pure trivial

end Concern

/-- The readers call each other with less fuel only, so the induction is on the fuel of all four. -/
lemma concern (hblank : ∀ t : Term, t.Under pre → allowed t) (n : Nat) : Concern allowed pre n := by
  induction n with
  | zero =>
    exact ⟨keeps_throw, keeps_throw, fun _ _ _ _ => keeps_throw, fun _ _ => keeps_throw⟩
  | succ n ih =>
    exact ⟨ih.object_succ hblank, ih.items_succ, fun _ _ hs hp => ih.objects_succ hs hp,
      fun _ hs => ih.properties_succ hs⟩

/-! ### Whole texts -/

lemma keeps_about {subject : Term} (hblank : ∀ t : Term, t.Under pre → allowed t)
    (hs : allowed subject) :
    Keeps pre (Graph.Made allowed pre) (about subject) fun _ => True := by
  unfold about
  refine keeps_blanks.seq fun _ => keeps_atEnd.seq fun e => ?_
  split
  · exact keeps_pure trivial
  · refine keeps_fuel.seq fun n => ((concern hblank n).properties subject hs).seq fun _ => ?_
    refine keeps_blanks.seq fun _ => keeps_ahead.seq fun c => ?_
    dsimp only
    split
    · refine keeps_drop.seq fun _ => keeps_blanks.seq fun _ => keeps_rest.seq fun cs => ?_
      split
      · exact keeps_pure trivial
      · exact keeps_throw
    · refine keeps_rest.seq fun cs => ?_
      split
      · exact keeps_pure trivial
      · exact keeps_throw

/-- In documents also the subjects that are blank have the prefix. -/
lemma keeps_triples : Keeps pre (Graph.Made (Term.Own pre) pre) triples fun _ => True := by
  have hblank : ∀ t : Term, t.Under pre → t.Own pre := fun t ht _ => ht
  unfold triples
  refine keeps_blanks.seq fun _ => keeps_fuel.seq fun n => keeps_ahead.seq fun c => ?_
  have hn := concern hblank n
  split
  · refine hn.object.bind fun s hs => keeps_blanks.seq fun _ => keeps_ahead.seq fun d => ?_
    split
    · exact hn.properties s hs
    · exact keeps_pure trivial
  · refine keeps_ahead.seq fun d => ?_
    split
    · exact hn.object.bind fun s hs => hn.properties s hs
    · exact keeps_name.bind fun s hs => hn.properties s (Term.own_of_isIri hs)

lemma keeps_declaration : Keeps pre J declaration fun _ => True := by
  unfold declaration
  refine keeps_blanks.seq fun _ => keeps_lexed.seq fun declared => keeps_drop.seq fun _ => ?_
  refine keeps_blanks.seq fun _ => keeps_reference.seq fun ns => ?_
  exact keeps_modify (fun _ => rfl) fun _ h => h

lemma keeps_baseDeclaration : Keeps pre J baseDeclaration fun _ => True := by
  unfold baseDeclaration
  refine keeps_blanks.seq fun _ => keeps_reference.seq fun base => ?_
  exact keeps_modify (fun _ => rfl) fun _ h => h

lemma keeps_directive : Keeps pre J directive fun _ => True := by
  unfold directive
  refine keeps_drop.seq fun _ => keeps_rest.seq fun cs => keeps_setRest.seq fun _ => ?_
  dsimp only
  split_ifs
  · exact keeps_declaration.seq fun _ => keeps_expect
  · exact keeps_baseDeclaration.seq fun _ => keeps_expect
  · exact keeps_throw

lemma keeps_statement : Keeps pre (Graph.Made (Term.Own pre) pre) statement fun _ => True := by
  unfold statement
  refine keeps_rest.seq fun cs => ?_
  split
  · exact keeps_directive
  · split
    · exact keeps_setRest.seq fun _ => keeps_declaration
    · split
      · exact keeps_setRest.seq fun _ => keeps_baseDeclaration
      · exact keeps_triples.seq fun _ => keeps_expect

lemma keeps_statements {n : Nat} :
    Keeps pre (Graph.Made (Term.Own pre) pre) (statements n) fun _ => True := by
  induction n with
  | zero => exact keeps_throw
  | succ n ih =>
    rw [statements]
    refine keeps_blanks.seq fun _ => keeps_atEnd.seq fun e => ?_
    split
    · exact keeps_pure trivial
    · exact keeps_statement.seq fun _ => ih

end Step

variable {r : Reader} {text : String} {g : Graph}

/-- A text that is read by steps that keep a property of the empty graph has the property. -/
lemma made_of_run {step : Step Unit} {allowed : Term → Prop}
    (hstep : Step.Keeps r.blankPrefix (Graph.Made allowed r.blankPrefix) step fun _ => True)
    (h : (r.run step text).1 = .ok g) : g.Made allowed r.blankPrefix := by
  unfold Reader.run at h
  dsimp only at h
  split at h
  · rename_i p hp
    cases h
    exact (hstep _ p () hp rfl fun t ht => by cases ht).2.1
  · simp at h

/-- **A list about a subject** has triples about that subject and about blank nodes only. -/
theorem about_of_readAbout {subject : Term} (h : (r.readAbout subject text).1 = .ok g) :
    g.About subject := by
  have hblank : ∀ t : Term, t.Under r.blankPrefix → t = subject ∨ t.isBlank :=
    fun t ht => .inr ht.isBlank
  have hmade := made_of_run (Step.keeps_about hblank (.inl rfl)) h
  exact fun t ht => (hmade t ht).subject

/-- **The blank nodes of a document** have the prefix of its reader. -/
theorem own_of_read (h : (r.read text).1 = .ok g) {t : Triple} (ht : t ∈ g.triples) :
    t.subject.Own r.blankPrefix ∧ t.predicate.isIri ∧ t.object.Own r.blankPrefix := by
  have hdocument : Step.Keeps r.blankPrefix
      (Graph.Made (Term.Own r.blankPrefix) r.blankPrefix) Step.document fun _ => True :=
    Step.keeps_rest.seq fun cs => Step.keeps_statements
  obtain ⟨hs, hp, ho⟩ := made_of_run hdocument h t ht
  exact ⟨hs, hp, ho⟩

end Turtle

end Semlift.Rdf
