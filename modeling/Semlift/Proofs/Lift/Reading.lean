import Semlift.Proofs.Lift.Holes
import Semlift.Proofs.Lift.Template

/-!
Reading a filled text. A step of reading turns placeholders of the text into terms, and later terms
into triples, so the two sides are kept in one account: the placeholders that are left stand at
harmless places and all that was read is whole, before a step exactly if they do and it is after
it. Each reader has one rule, and a text about a subject is whole exactly if its placeholders stood
at harmless places when reading began.
-/

namespace Semlift.Lift

open Semlift.Rdf Semlift.Rdf.Turtle Semlift.Rdf.Turtle.Step

def WholeTriple (x : Triple) : Prop :=
  WholeTerm x.subject ∧ WholeTerm x.predicate ∧ WholeTerm x.object

def WholeGraph (g : Graph) : Prop := ∀ x ∈ g.triples, WholeTriple x

/-- A reader with these prefixes that takes references as they are written. -/
structure Plain (ps : Prefixes) (r : Reader) : Prop where
  base : r.base = ""
  prefixes : r.prefixes = ps

/-- What is known before a step and the placeholders of the text that is left come to the same as
what is known after it and the placeholders that are left then, provided that the step succeeds. -/
def Carries {α : Type} (ps : Prefixes) (A : Progress → Prop) (P : Prop) (datatype : Bool)
    (x : Step α) (Q : α → Prop) : Prop :=
  ∀ p q a, x.run.run p = (.ok a, q) → Plain ps p.reader → A p →
    Plain ps q.reader ∧
      Leads (P ∧ WholeGraph p.graph) datatype p.rest (Q a ∧ WholeGraph q.graph) false q.rest

variable {α β : Type} {ps : Prefixes} {A B : Progress → Prop} {P K F : Prop} {Q : α → Prop}
  {R : β → Prop} {x : Step α} {f : α → Step β} {a : α} {datatype e : Bool} {n : Nat}
  {t : Term} {cs : List Char}

lemma wholeGraph_add {g : Graph} {x : Triple} :
    WholeGraph (g.add x) ↔ WholeGraph g ∧ WholeTriple x := by
  simp only [WholeGraph, Graph.mem_add, or_imp, forall_and, forall_eq]

/-! ### Rules -/

lemma carries_pure (h : ∀ p, A p → WholeGraph p.graph → (P ↔ Q a)) :
    Carries ps A P false (pure a) Q := by
  rintro p q b ⟨⟩ hr hA
  exact ⟨hr, leads_of_iff (and_congr_left (h p hA))⟩

lemma carries_throw {fault : Fault} : Carries ps A P datatype (throw fault : Step α) Q := by
  rintro p q a ⟨⟩

lemma Carries.bind (hx : Carries ps A P datatype x Q)
    (hf : ∀ a, Carries ps (fun _ => True) (Q a) false (f a) R) :
    Carries ps A P datatype (x >>= f) R := by
  intro p r b h hr hA
  obtain ⟨a, q, hxp, hfq⟩ := of_run_bind h
  obtain ⟨hq, hlead⟩ := hx p q a hxp hr hA
  obtain ⟨hr', hlead'⟩ := hf a q r b hfq hq trivial
  exact ⟨hr', hlead.trans hlead'⟩

lemma Carries.frame (hx : Carries ps A P datatype x Q) :
    Carries ps A (P ∧ F) datatype x fun a => Q a ∧ F := by
  intro p q a h hr hA
  obtain ⟨hq, hlead⟩ := hx p q a h hr hA
  refine ⟨hq, ?_⟩
  rw [and_right_comm, and_right_comm (a := Q a)]
  exact hlead.frame

/-- A look at the text, with what is seen as an assumption. -/
lemma carries_rest {f : List Char → Step β}
    (h : ∀ cs, Carries ps (fun p => A p ∧ p.rest = cs) P datatype (f cs) R) :
    Carries ps A P datatype (rest >>= f) R :=
  fun p q b hrun hr hA => h p.rest p q b hrun hr ⟨hA, rfl⟩

lemma carries_ahead {f : Char → Step β}
    (h : ∀ c, Carries ps (fun p => A p ∧ at' p.rest n = c) P datatype (f c) R) :
    Carries ps A P datatype (ahead n >>= f) R :=
  fun p q b hrun hr hA => h (at' p.rest n) p q b hrun hr ⟨hA, rfl⟩

lemma carries_atEnd {f : Bool → Step β}
    (h : ∀ e, Carries ps A P datatype (f e) R) : Carries ps A P datatype (atEnd >>= f) R :=
  fun p q b hrun hr hA => h p.rest.isEmpty p q b hrun hr hA

lemma carries_fuel {f : Nat → Step β}
    (h : ∀ n, Carries ps A P datatype (f n) R) : Carries ps A P datatype (fuel >>= f) R :=
  fun p q b hrun hr hA => h (3 * p.rest.length + 3) p q b hrun hr hA

lemma carries_get {f : Progress → Step β}
    (h : ∀ p, Plain ps p.reader → Carries ps A P datatype (f p) R) :
    Carries ps A P datatype (get >>= f) R :=
  fun p q b hrun hr hA => h p hr p q b hrun hr hA

lemma carries_modify {g : List Char → List Char} {f : Unit → Step β}
    (hg : ∀ p, A p → Leads P datatype p.rest K e (g p.rest))
    (hA : ∀ p, A p → B { p with rest := g p.rest })
    (h : Carries ps B K e (f ()) R) :
    Carries ps A P datatype ((modify fun p => { p with rest := g p.rest } : Step Unit) >>= f)
      R := by
  intro p q b hrun hr hp
  obtain ⟨hq, hlead⟩ := h { p with rest := g p.rest } q b hrun hr (hA p hp)
  exact ⟨hq, (hg p hp).frame.trans hlead⟩

lemma carries_setRest {f : Unit → Step β}
    (hcs : ∀ p, A p → Leads P datatype p.rest K e cs)
    (h : Carries ps (fun _ => True) K e (f ()) R) :
    Carries ps A P datatype (setRest cs >>= f) R :=
  carries_modify (g := fun _ => cs) hcs (fun _ _ => trivial) h

lemma carries_blanks {f : Unit → Step β} (h : Carries ps (fun _ => True) P datatype (f ()) R) :
    Carries ps A P datatype (blanks >>= f) R :=
  carries_modify (fun _ _ => leads_skip) (fun _ _ => trivial) h

lemma carries_drop_one {c : Char} {f : Unit → Step β} (hc : Inert c)
    (hA : ∀ p, A p → at' p.rest 0 = c) (h : Carries ps (fun _ => True) P false (f ()) R) :
    Carries ps A P false (drop 1 >>= f) R :=
  carries_modify (fun p hp => leads_drop_one (hA p hp ▸ hc)) (fun _ _ => trivial) h

/-- A lexer leads from the text to what it leaves. -/
lemma carries_lex_bind {l : Lexer α} {C : α → List Char → Prop} {f : α → Step β}
    (h : ∀ p a more, A p → l p.rest = .ok (a, more) →
      Leads P datatype p.rest (Q a) false more ∧ C a more)
    (hf : ∀ a, Carries ps (fun p => C a p.rest) (Q a) false (f a) R) :
    Carries ps A P datatype (lex l >>= f) R := by
  unfold lex
  rw [bind_assoc]
  refine carries_rest fun cs => ?_
  cases hl : l cs with
  | error e => rintro p q a ⟨⟩
  | ok r =>
    obtain ⟨a, more⟩ := r
    dsimp only
    rw [bind_assoc]
    refine carries_modify (g := fun _ => more) (B := fun p => C a p.rest) ?_ ?_ (hf a)
    · rintro p ⟨hA, rfl⟩
      exact (h p a more hA hl).1
    · rintro p ⟨hA, rfl⟩
      exact (h p a more hA hl).2

lemma carries_lex {l : Lexer α} (h : ∀ p a more, A p → l p.rest = .ok (a, more) →
    Leads P datatype p.rest (Q a) false more) : Carries ps A P datatype (lex l) Q := by
  rw [← bind_pure (lex l)]
  exact carries_lex_bind (C := fun _ _ => True)
    (fun p a more hA hl => ⟨h p a more hA hl, trivial⟩) fun a => carries_pure fun _ _ _ => .rfl

/-! ### Names and literals -/

lemma carries_reference :
    Carries ps A True datatype reference fun iri => Fits datatype (.iri iri) := by
  refine (carries_lex fun _ _ _ _ h => leads_reference h).bind fun iri => carries_get fun p hp => ?_
  have hresolve : p.reader.resolve iri = iri := by simp [Reader.resolve, hp.base]
  rw [hresolve]
  exact carries_pure fun _ _ _ => .rfl

lemma carries_prefixed (hps : Apart ps) {before : String} :
    Carries ps A True false (do
      let (loc, cs) := localName (← rest)
      setRest cs
      match (← get).reader.prefixes.find? before with
      | none => throw (.undeclared before)
      | some ns => return Term.iri (ns ++ loc)) (Fits datatype) := by
  refine carries_rest fun cs => ?_
  rcases hl : localName cs with ⟨loc, more⟩
  -- whichever namespace the prefix has, the name has no mark
  refine carries_setRest (e := false) (K := ∀ ns, ps.find? before = some ns →
    Fits datatype (.iri (ns ++ loc))) ?_ (carries_get fun p hp => ?_)
  · rintro p ⟨-, rfl⟩ hready
    obtain ⟨w, hw, hcs, rfl⟩ := cut_of_localName hready.unescaped hl
    rw [hcs] at hready ⊢
    obtain ⟨hmore, hclear⟩ :=
      leads_append (P := True) (fun c hc => inert_of_isLocalChar (hw c hc)) (fun _ => rfl) hready
    have hfits : ∀ ns, ps.find? before = some ns →
        Fits datatype (.iri (ns ++ String.ofList w)) := fun ns hns =>
      fits_of_not_marked (not_marked_prefixed hps hns hready.filledIn hw)
    refine ⟨hmore, hclear.trans ?_⟩
    rw [true_and, iff_and_self]
    exact fun _ => hfits
  · rw [hp.prefixes]
    split
    · exact carries_throw
    · rename_i ns hns
      refine carries_pure fun _ _ _ => ⟨fun h => h ns hns, fun h ns' hns' => ?_⟩
      rw [hns] at hns'
      cases hns'
      exact h

lemma carries_name (hps : Apart ps) : Carries ps A True datatype name (Fits datatype) := by
  unfold name
  refine carries_blanks (carries_rest fun cs => ?_)
  split
  · exact carries_throw
  · exact carries_reference.bind fun iri => carries_pure fun _ _ _ => .rfl
  · refine carries_lex_bind (C := fun _ rest => at' rest 0 = ':') (Q := fun _ => True)
      (fun p before more _ h => ⟨leads_prefixName h, ?_⟩) fun before => ?_
    · obtain ⟨-, rest, rfl⟩ := cut_of_prefixName h
      rfl
    · exact carries_drop_one (by decide) (fun _ hp => hp) (carries_prefixed hps)

lemma carries_labelled (h₀ : ∀ p, A p → at' p.rest 0 = '_') (h₁ : ∀ p, A p → at' p.rest 1 = ':') :
    Carries ps A True false labelled WholeTerm := by
  refine carries_modify (B := fun _ => True) (K := True) (e := false) (fun p hp => ?_)
    (fun _ _ => trivial) ?_
  · obtain ⟨cs, hcs⟩ := exists_cons_of_at' (h₀ p hp) (by decide)
    obtain ⟨more, hmore⟩ := exists_cons_of_at' (h₁ p hp) (by decide)
    rw [List.drop_zero] at hcs
    rw [hcs] at hmore ⊢
    obtain rfl : cs = ':' :: more := hmore
    exact leads_append (w := ['_', ':']) (List.all_iff_forall_prop.mp (by decide)) nofun
  · refine Carries.bind (Q := fun _ => True) (carries_lex fun _ _ _ _ h => ?_) fun label =>
      carries_get fun p hp => carries_pure fun _ _ _ => .rfl
    exact leads_cut (cut_of_blankLabel h) fun _ => inert_of_isNameChar

lemma carries_literal (hps : Apart ps) (hA : ∀ p, A p → isQuote (at' p.rest 0) = true) :
    Carries ps A True false literal WholeTerm := by
  have hlex : Carries ps A True false (lex quoted) fun lexical => ¬Marked lexical := by
    refine carries_lex fun p lexical more hp h => ?_
    obtain ⟨cs, hcs⟩ := exists_cons_of_at' (n := 0) rfl (ne_nul_of_isQuote (hA p hp))
    rw [List.drop_zero] at hcs
    rw [hcs] at h ⊢
    exact leads_quoted (hA p hp) h
  have hlang : ¬Marked Vocabulary.rdfLangString := by decide +kernel
  have hstring : ¬Marked Vocabulary.xsdString := by decide +kernel
  refine hlex.bind fun lexical => carries_rest fun cs => ?_
  split
  · rename_i cs
    refine carries_setRest (e := false) (fun p hp => ?_)
      (carries_pure fun _ _ _ => (and_iff_left hlang).symm)
    rw [hp.2]
    have htag : ∀ c, isTagChar c = true → isNameChar c = true := fun c => isNameChar_of_isTagChar
    exact (leads_append (w := ['@']) (List.forall_mem_singleton.mpr (by decide)) nofun).trans
      (leads_cut (cut_dropWhile htag) fun _ => inert_of_isNameChar)
  · rename_i cs
    have hname : Carries ps (fun _ => True) (True ∧ ¬Marked lexical) true name
        fun t => Fits true t ∧ ¬Marked lexical := (carries_name hps).frame
    rw [true_and] at hname
    refine carries_setRest (fun p hp => ?_) (hname.bind fun t => carries_pure fun _ _ _ => and_comm)
    rw [hp.2]
    exact leads_carets
  · exact carries_pure fun _ _ _ => (and_iff_left hstring).symm

lemma carries_verb (hps : Apart ps) : Carries ps A True false verb WholeTerm := by
  unfold verb
  refine carries_blanks ?_
  refine carries_ahead fun after => carries_ahead fun c => ?_
  split
  · rename_i h
    simp only [Bool.and_eq_true, beq_iff_eq] at h
    have htype : WholeTerm (.iri Vocabulary.rdfType) := .inr (.inr (by decide +kernel))
    exact carries_drop_one (by decide) (fun p hp => hp.2.trans h.1)
      (carries_pure fun _ _ _ => iff_of_true trivial htype)
  · exact carries_name hps

lemma not_marked_of_isNumeralChar {w : List Char} (h : ∀ c ∈ w, isNumeralChar c = true) :
    ¬Marked (String.ofList w) := by
  intro hm
  have hspells := spells_of_marked hm
  rw [Spells, String.toList_ofList] at hspells
  exact absurd (h ':' (hspells.subset (by decide))) (by decide)

lemma carries_numeral : Carries ps A True false (lex numeral) WholeTerm := by
  refine carries_lex fun p t more _ h => ?_
  obtain ⟨w, type, hw, hcs, rfl, htype⟩ := cut_of_numeral h
  have htypes : ∀ type ∈ [Vocabulary.xsdInteger, Vocabulary.xsdDecimal, Vocabulary.xsdDouble],
      ¬Marked type := by decide +kernel
  have hwhole : WholeTerm (.typed (String.ofList w) type) :=
    ⟨not_marked_of_isNumeralChar hw, htypes type htype⟩
  rw [hcs]
  exact (leads_append (fun c hc => inert_of_isNumeralChar (hw c hc)) fun _ => rfl).trans
    (leads_of_iff (iff_of_true trivial hwhole))

lemma whole_boolean {b : Bool} : WholeTerm (.boolean b) := by
  cases b <;> exact ⟨by decide +kernel, by decide +kernel⟩

/-! ### Triples -/

/-- A triple that is given off takes over what is known of its terms. -/
lemma carries_emit {s v o : Term} {f : Unit → Step β} (hs : WholeTerm s)
    (hP : P ↔ WholeTerm v ∧ WholeTerm o ∧ K)
    (h : Carries ps (fun p => WholeGraph p.graph → WholeTerm v) K false (f ()) R) :
    Carries ps A P false (emit s v o >>= f) R := by
  intro p q b hrun hr _
  have hadd : WholeGraph (p.graph.add ⟨s, v, o⟩) ↔
      WholeGraph p.graph ∧ WholeTerm s ∧ WholeTerm v ∧ WholeTerm o := wholeGraph_add
  obtain ⟨hq, hlead⟩ := h { p with graph := p.graph.add ⟨s, v, o⟩ } q b hrun hr
    fun hg => (hadd.mp hg).2.2.1
  refine ⟨hq, (leads_of_iff ?_).trans hlead⟩
  rw [hP, hadd]
  tauto

lemma carries_freshBlank {f : Term → Step β}
    (h : ∀ label, Carries ps (fun _ => True) P datatype (f (.blank label)) R) :
    Carries ps A P datatype (freshBlank >>= f) R := by
  intro p q b hrun hr _
  exact h _ { p with reader.nextBlank := p.reader.nextBlank + 1 } q b hrun ⟨hr.base, hr.prefixes⟩
    trivial

lemma carries_freshBlanks {l : List α} {f : List Term → Step β}
    (h : ∀ cells, cells.length = l.length → (∀ c ∈ cells, WholeTerm c) →
      Carries ps (fun _ => True) P datatype (f cells) R) :
    Carries ps (fun _ => True) P datatype ((l.mapM fun _ => freshBlank) >>= f) R := by
  induction l generalizing f with
  | nil => exact h [] rfl (by simp)
  | cons a l ih =>
    simp only [List.mapM_cons, bind_assoc, pure_bind]
    refine carries_freshBlank fun label => ih fun cells hlength hwhole => ?_
    exact h (.blank label :: cells) (by simp [hlength]) (by simpa using ⟨trivial, hwhole⟩)

lemma whole_vocabulary : ∀ name ∈ [Vocabulary.rdfFirst, Vocabulary.rdfRest, Vocabulary.rdfNil],
    WholeTerm (.iri name) := by
  have h : ∀ name ∈ [Vocabulary.rdfFirst, Vocabulary.rdfRest, Vocabulary.rdfNil], ¬Marked name := by
    decide +kernel
  exact fun name hname => .inr (.inr (h name hname))

lemma carries_emitCells {cells : List (Term × Term)} (h : ∀ c ∈ cells, WholeTerm c.1) :
    Carries ps A (∀ c ∈ cells, WholeTerm c.2) false (emitCells cells) fun _ => True := by
  induction cells generalizing A with
  | nil => exact carries_pure fun _ _ _ => by simp
  | cons c more ih =>
    have hc := h c (by simp)
    have hfirst : WholeTerm (.iri Vocabulary.rdfFirst) := whole_vocabulary _ (by simp)
    have hrest : WholeTerm (.iri Vocabulary.rdfRest) := whole_vocabulary _ (by simp)
    refine carries_emit (K := ∀ c ∈ more, WholeTerm c.2) hc (by simp [hfirst]) ?_
    refine carries_emit hc ?_ (ih fun d hd => h d (by simp [hd]))
    have hnil : WholeTerm (.iri Vocabulary.rdfNil) := whole_vocabulary _ (by simp)
    cases more with
    | nil => simp [hrest, hnil]
    | cons d more =>
      have hd : WholeTerm d.1 := h d (by simp)
      simp [hrest, hd]

lemma carries_collectionOf {ts : List Term} :
    Carries ps (fun _ => True) (∀ t ∈ ts, WholeTerm t) false (collectionOf ts) WholeTerm := by
  refine carries_freshBlanks fun cells hlength hwhole => ?_
  have hitems : (∀ t ∈ (cells.zip ts).map Prod.snd, WholeTerm t) ↔
      ∀ c ∈ cells.zip ts, WholeTerm c.2 := List.forall_mem_map
  rw [List.map_snd_zip (by omega)] at hitems
  have hhead : WholeTerm (cells.headD (.iri Vocabulary.rdfNil)) := by
    cases cells with
    | nil => exact whole_vocabulary _ (by simp)
    | cons c more => exact hwhole c (by simp)
  rw [hitems]
  exact (carries_emitCells fun c hc => hwhole _ (List.of_mem_zip hc).1).bind fun _ =>
    carries_pure fun _ _ _ => iff_of_true trivial hhead

/-! ### Predicates and objects -/

lemma carries_expect {wanted : Char} {f : Unit → Step β} (hw : Inert wanted)
    (h : Carries ps (fun _ => True) P false (f ()) R) :
    Carries ps A P false (expect wanted >>= f) R := by
  unfold expect
  simp only [bind_assoc]
  refine carries_blanks (carries_rest fun cs => ?_)
  split
  · rintro p q a ⟨⟩
  · rename_i c more
    split
    · rename_i hc
      refine carries_setRest (fun p hp => ?_) h
      rw [hp.2, hc]
      exact leads_append (w := [wanted]) (by simpa using hw) (by simp)
    · rintro p q a ⟨⟩

/-- What the four readers that call each other carry over. -/
structure Carried (ps : Prefixes) (n : Nat) : Prop where
  object : ∀ {A}, Carries ps A True false (object n) WholeTerm
  items : ∀ {A}, Carries ps A True false (items n) fun ts => ∀ t ∈ ts, WholeTerm t
  objects : ∀ {A} s v, WholeTerm s →
    Carries ps A (WholeTerm v) false (objects n s v) fun _ => True
  properties : ∀ {A} s, WholeTerm s → Carries ps A True false (properties n s) fun _ => True

section Carried

variable {s v : Term} (h : Carried ps n)

include h

lemma Carried.object_succ (hps : Apart ps) :
    Carries ps A True false (Step.object (n + 1)) WholeTerm := by
  rw [Step.object]
  refine carries_blanks (carries_ahead fun c => carries_ahead fun d => ?_)
  split_ifs with hbracket hparen hlabel hquote hnumeral
  · refine carries_drop_one (by decide) (fun p hp => hp.1.2.trans (beq_iff_eq.mp hbracket)) ?_
    refine carries_freshBlank fun label => carries_blanks (carries_ahead fun e => ?_)
    have hclose {A} : Carries ps A True false (do expect ']'; pure (Term.blank label)) WholeTerm :=
      carries_expect (by decide) (carries_pure fun _ _ _ => .rfl)
    dsimp only
    split
    · exact (h.properties (.blank label) trivial).bind fun _ => hclose
    · exact hclose
  · refine carries_drop_one (by decide) (fun p hp => hp.1.2.trans (beq_iff_eq.mp hparen)) ?_
    exact carries_blanks (h.items.bind fun ts => carries_collectionOf)
  · simp only [Bool.and_eq_true, beq_iff_eq] at hlabel
    exact carries_labelled (fun p hp => hp.1.2.trans hlabel.1) fun p hp => hp.2.trans hlabel.2
  · exact carries_literal hps fun p hp => by rw [hp.1.2]; exact hquote
  · exact carries_numeral
  · refine carries_rest fun cs => ?_
    split
    · rename_i t more htruth
      obtain ⟨hcut, b, rfl⟩ := cut_of_truth? htruth
      refine carries_setRest (K := True) (e := false) (fun p hp => ?_)
        (carries_pure fun _ _ _ => iff_of_true trivial whole_boolean)
      rw [hp.2]
      exact leads_cut hcut fun _ => inert_of_isNameChar
    · exact carries_name hps

lemma Carried.items_succ :
    Carries ps A True false (Step.items (n + 1)) fun ts => ∀ t ∈ ts, WholeTerm t := by
  rw [Step.items]
  refine carries_ahead fun c => ?_
  split
  · rename_i hc
    exact carries_drop_one (by decide) (fun p hp => hp.2.trans (beq_iff_eq.mp hc))
      (carries_pure fun _ _ _ => by simp)
  · refine carries_atEnd fun e => ?_
    split
    · exact carries_throw
    · refine h.object.bind fun t => ?_
      have hitems := h.items.frame (A := fun _ => True) (F := WholeTerm t)
      rw [true_and] at hitems
      refine carries_blanks (hitems.bind fun ts => carries_pure fun _ _ _ => ?_)
      rw [List.forall_mem_cons, and_comm]

/-- Once its first triple is there, what is known of a predicate is known from the triples. -/
lemma Carried.objects_succ (hs : WholeTerm s) :
    Carries ps A (WholeTerm v) false (Step.objects (n + 1) s v) fun _ => True := by
  rw [Step.objects]
  have hobject := h.object.frame (A := A) (F := WholeTerm v)
  rw [true_and] at hobject
  refine hobject.bind fun t => carries_emit (K := WholeTerm v) hs (by tauto) ?_
  refine carries_modify (B := fun p => WholeGraph p.graph → WholeTerm v) (fun _ _ => leads_skip)
    (fun _ hp => hp) (carries_ahead fun c => ?_)
  split
  · rename_i hc
    exact carries_drop_one (by decide) (fun p hp => hp.2.trans (beq_iff_eq.mp hc))
      (h.objects s v hs)
  · exact carries_pure fun p hp hg => iff_of_true (hp.1 hg) trivial

lemma Carried.properties_succ (hps : Apart ps) (hs : WholeTerm s) :
    Carries ps A True false (Step.properties (n + 1) s) fun _ => True := by
  rw [Step.properties]
  refine (carries_verb hps).bind fun v => (h.objects s v hs).bind fun _ => ?_
  refine carries_blanks (carries_ahead fun c => ?_)
  split
  · refine carries_modify (B := fun _ => True) (fun _ _ => leads_skipSemicolons)
      (fun _ _ => trivial) (carries_ahead fun next => carries_atEnd fun e => ?_)
    split
    · exact carries_pure fun _ _ _ => .rfl
    · exact h.properties s hs
  · exact carries_pure fun _ _ _ => .rfl

end Carried

/-- The induction is on the fuel of all four. -/
lemma carried (hps : Apart ps) (n : Nat) : Carried ps n := by
  induction n with
  | zero =>
    exact ⟨carries_throw, carries_throw, fun _ _ _ => carries_throw, fun _ _ => carries_throw⟩
  | succ n ih =>
    exact ⟨ih.object_succ hps, ih.items_succ, fun _ _ hs => ih.objects_succ hs,
      fun _ hs => ih.properties_succ hps hs⟩

/-- Nothing is left behind a list of properties. -/
def close : Step Unit := do
  match ← rest with
  | [] => return
  | c :: _ => throw (.afterList c)

lemma carries_close : Carries ps A True false close fun _ => True := by
  refine carries_rest fun cs => ?_
  split
  · exact carries_pure fun _ _ _ => .rfl
  · exact carries_throw

lemma carries_about {subject : Term} (hps : Apart ps) (hs : WholeTerm subject) :
    Carries ps A True false (about subject) fun _ => True := by
  refine carries_blanks (carries_atEnd fun e => ?_)
  split
  · exact carries_pure fun _ _ _ => .rfl
  · refine carries_fuel fun n => ((carried hps n).properties subject hs).bind fun _ => ?_
    refine carries_blanks (carries_ahead fun c => ?_)
    dsimp only
    split
    · rename_i hc
      exact carries_drop_one (by decide) (fun p hp => hp.2.trans (beq_iff_eq.mp hc))
        (carries_blanks carries_close)
    · exact carries_close

/-- A step after which nothing is left to read. -/
def Ends (x : Step α) : Prop := ∀ p q a, x.run.run p = (.ok a, q) → q.rest = []

lemma Ends.bind (h : ∀ a, Ends (f a)) : Ends (x >>= f) := by
  intro p r b hrun
  obtain ⟨a, q, -, hfq⟩ := of_run_bind hrun
  exact h a q r b hfq

lemma ends_rest {f : List Char → Step β}
    (h : ∀ p q b, (f p.rest).run.run p = (.ok b, q) → q.rest = []) : Ends (rest >>= f) := h

lemma ends_atEnd {f : Bool → Step β}
    (h : ∀ p q b, (f p.rest.isEmpty).run.run p = (.ok b, q) → q.rest = []) :
    Ends (atEnd >>= f) := h

lemma ends_close : Ends close := by
  refine ends_rest fun p q b hrun => ?_
  cases hrest : p.rest with
  | nil =>
    rw [hrest] at hrun
    cases hrun
    exact hrest
  | cons c cs =>
    rw [hrest] at hrun
    cases hrun

lemma ends_about {subject : Term} : Ends (about subject) := by
  refine Ends.bind fun _ => ends_atEnd fun p q b hrun => ?_
  cases hrest : p.rest with
  | nil =>
    rw [hrest] at hrun
    cases hrun
    exact hrest
  | cons c cs =>
    rw [hrest, if_neg (by simp)] at hrun
    refine (Ends.bind fun n => Ends.bind fun _ => Ends.bind fun _ =>
      Ends.bind fun c => ?_) p q b hrun
    dsimp only
    split
    · exact Ends.bind fun _ => Ends.bind fun _ => ends_close
    · exact ends_close

end Semlift.Lift
