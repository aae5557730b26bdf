import Mathlib.Data.List.Nodup
import Mathlib.Data.List.Pairwise
import Semlift.Proofs.Rdf.Turtle.Mentions
import Semlift.Proofs.Rdf.Turtle.Uses
import Semlift.Proofs.Text.Numerals

/-!
When anonymous nodes are fresh. They are numbered in the order in which they are made, under the
prefix that the labels of a document get as well. So the node of a pair of brackets or of a cell is
made for no other place exactly if no label has the text of a number that the document uses.
-/

namespace Semlift.Rdf.Turtle

open Semlift.Text Semlift.Number

/-- Two mentions do not have one node, if one of them is anonymous. -/
def Mention.Apart (m m' : Mention) : Prop := m.label = none ∨ m'.label = none → m.node ≠ m'.node

/-- The node of an anonymous mention is that of no other mention. -/
def Fresh (ms : List Mention) : Prop := ms.Pairwise Mention.Apart

instance : DecidableRel Mention.Apart := fun _ _ => inferInstanceAs (Decidable (_ → _))

instance : DecidablePred Fresh := fun _ => inferInstanceAs (Decidable (List.Pairwise _ _))

instance : Std.Symm Mention.Apart := ⟨fun _ _ h hor => (h hor.symm).symm⟩

/-- The node with a number. -/
def Reader.minted (r : Reader) (n : Nat) : Term := .blank (r.blankPrefix ++ "b" ++ natText n)

/-- The nodes without a label, in order. -/
def anonymous (ms : List Mention) : List Term :=
  (ms.filter fun m => m.label.isNone).map Mention.node

/-- If a term is a blank node, then that of a mention. -/
def Known (ms : List Mention) (t : Term) : Prop := t.isBlank → ∃ m ∈ ms, m.node = t

/-! ### What is listed -/

/-- The list goes with what has been read: anonymous nodes have the numbers that are used up, the
others their labels, and there are no other blank nodes. -/
structure Tracks (r : Reader) (p : Progress) (ms : List Mention) : Prop where
  blankPrefix : p.reader.blankPrefix = r.blankPrefix
  nextBlank : p.reader.nextBlank = r.nextBlank + (anonymous ms).length
  numbered : anonymous ms = (List.range' r.nextBlank (anonymous ms).length).map r.minted
  labelled : ∀ m ∈ ms, ∀ l ∈ m.label, m.node = .blank (r.blankPrefix ++ l)
  known : ∀ t ∈ p.graph.triples, Known ms t.subject ∧ Known ms t.object

variable {r : Reader} {p q : Progress} {ms ms' ms₀ : List Mention} {m : Mention} {t : Term}

lemma Known.mono (h : Known ms t) (hms : ms ⊆ ms') : Known ms' t := fun hb =>
  let ⟨m, hm, ht⟩ := h hb
  ⟨m, hms hm, ht⟩

lemma known_of_isIri (h : t.isIri) : Known ms t := by
  intro hb
  cases t <;> simp [Term.isIri, Term.isBlank] at h hb

lemma known_of_isLiteral (h : t.isLiteral) : Known ms t := by
  intro hb
  cases t <;> simp [Term.isLiteral, Term.isBlank] at h hb

/-- Steps that make no node and no triple. -/
structure Still (p q : Progress) : Prop where
  blankPrefix : q.reader.blankPrefix = p.reader.blankPrefix
  nextBlank : q.reader.nextBlank = p.reader.nextBlank
  graph : q.graph = p.graph

lemma Still.trans {s : Progress} (h : Still p q) (h' : Still q s) : Still p s :=
  ⟨h'.blankPrefix.trans h.blankPrefix, h'.nextBlank.trans h.nextBlank, h'.graph.trans h.graph⟩

lemma Step.Uses.still {k : Nat} (h : Step.Uses k p q) : Still p q :=
  ⟨congrArg _ h.reader, congrArg _ h.reader, h.graph⟩

lemma Tracks.still (h : Tracks r p ms) (hq : Still p q) : Tracks r q ms where
  blankPrefix := hq.blankPrefix.trans h.blankPrefix
  nextBlank := hq.nextBlank.trans h.nextBlank
  numbered := h.numbered
  labelled := h.labelled
  known := hq.graph ▸ h.known

lemma anonymous_append : anonymous (ms ++ [m]) =
    if m.label = none then anonymous ms ++ [m.node] else anonymous ms := by
  cases hm : m.label <;> simp [anonymous, hm]

lemma Known.append (h : Known ms t) : Known (ms ++ [m]) t :=
  h.mono (List.subset_append_left ms [m])

lemma known_of_mem (h : m ∈ ms) : Known ms m.node := fun _ => ⟨m, h, rfl⟩

/-- The next number is used up. -/
lemma Tracks.minted (h : Tracks r p ms) (hblank : q.reader.blankPrefix = p.reader.blankPrefix)
    (hnext : q.reader.nextBlank = p.reader.nextBlank + 1) (hgraph : q.graph = p.graph) :
    Tracks r q (ms ++ [⟨none, p.reader.minted p.reader.nextBlank⟩]) := by
  have hnode : p.reader.minted p.reader.nextBlank =
      r.minted (r.nextBlank + (anonymous ms).length) := by
    rw [Reader.minted, h.blankPrefix, h.nextBlank]
    rfl
  have hanonymous : anonymous (ms ++ [⟨none, p.reader.minted p.reader.nextBlank⟩]) =
      anonymous ms ++ [r.minted (r.nextBlank + (anonymous ms).length)] := by
    rw [anonymous_append, if_pos rfl, hnode]
  refine ⟨hblank.trans h.blankPrefix, ?_, ?_, fun m hm l hl => ?_, fun t ht => ?_⟩
  · rw [hanonymous, hnext, h.nextBlank, List.length_append, List.length_singleton, Nat.add_assoc]
  · rw [hanonymous, List.length_append, List.length_singleton, List.range'_concat, Nat.one_mul,
      List.map_append, ← h.numbered, List.map_singleton]
  · rcases List.mem_append.1 hm with hm | hm
    · exact h.labelled m hm l hl
    · cases List.mem_singleton.1 hm
      cases hl
  · obtain ⟨hs, ho⟩ := h.known t (hgraph ▸ ht)
    exact ⟨hs.append, ho.append⟩

lemma Tracks.label {label : String} (h : Tracks r p ms) :
    Tracks r p (ms ++ [⟨some label, .blank (p.reader.blankPrefix ++ label)⟩]) := by
  have hanonymous : anonymous
      (ms ++ [⟨some label, .blank (p.reader.blankPrefix ++ label)⟩]) = anonymous ms := by
    rw [anonymous_append, if_neg nofun]
  refine ⟨h.blankPrefix, by rw [hanonymous, h.nextBlank], by rw [hanonymous, ← h.numbered],
    fun m hm l hl => ?_, fun t ht => ?_⟩
  · rcases List.mem_append.1 hm with hm | hm
    · exact h.labelled m hm l hl
    · cases List.mem_singleton.1 hm
      cases hl
      rw [h.blankPrefix]
  · obtain ⟨hs, ho⟩ := h.known t ht
    exact ⟨hs.append, ho.append⟩

lemma Tracks.add {s p' o : Term} (h : Tracks r p ms) (hs : Known ms s) (ho : Known ms o) :
    Tracks r { p with graph := p.graph.add ⟨s, p', o⟩ } ms := by
  refine ⟨h.blankPrefix, h.nextBlank, h.numbered, h.labelled, fun t ht => ?_⟩
  rcases Graph.mem_add.1 ht with ht | rfl
  · exact h.known t ht
  · exact ⟨hs, ho⟩

namespace Step

variable {α β : Type} {x : Step α} {f : α → Step β} {k : Nat}

lemma Goes.still (hx : Goes (Uses k) x p) (hf : ∀ a q, Goes Still (f a) q) :
    Goes Still (x >>= f) p :=
  hx.bind (fun a q _ => hf a q) fun _ _ h => h.still.trans

lemma still_declaration : Goes Still declaration p := by
  refine uses_blanks.still fun _ _ => ?_
  refine (uses_lex fun _ _ h => (leaves_prefixName h).1).still fun declared _ => ?_
  refine uses_drop.still fun _ _ => uses_blanks.still fun _ _ => uses_reference.still fun ns _ => ?_
  exact goes_modify ⟨rfl, rfl, rfl⟩

lemma still_baseDeclaration : Goes Still baseDeclaration p :=
  uses_blanks.still fun _ _ => uses_reference.still fun _ _ => goes_modify ⟨rfl, rfl, rfl⟩

lemma still_directive : Goes Still directive p := by
  have hpoint : ∀ q, Goes Still (expect '.') q := fun _ => uses_expect.mono fun _ => Uses.still
  refine uses_drop.still fun _ _ => uses_rest.still fun cs q => ?_
  refine Goes.bind (R := Still) (goes_modify ⟨rfl, rfl, rfl⟩) (fun _ q _ => ?_)
    fun _ _ => Still.trans
  split_ifs
  · exact still_declaration.bind (fun _ q _ => hpoint q) fun _ _ => Still.trans
  · exact still_baseDeclaration.bind (fun _ q _ => hpoint q) fun _ _ => Still.trans
  · exact goes_throw

end Step

namespace Traced

variable {α β : Type} {x : Traced α} {f : α → Traced β} {y : Step α} {Q : List Mention → α → Prop}
  {R : List Mention → β → Prop}

/-- A step keeps the list in line with what has been read, from any list with given mentions on. -/
def Logs (r : Reader) (ms₀ : List Mention) (x : Traced α) (Q : List Mention → α → Prop) : Prop :=
  ∀ p ms a ms' q, Tracks r p ms → ms₀ ⊆ ms → Step.Gives (x.run ms) p (a, ms') q →
    Tracks r q ms' ∧ ms ⊆ ms' ∧ Q ms' a

/-! ### Rules -/

lemma logs_pure {a : α} (h : ∀ ms, ms₀ ⊆ ms → Q ms a) : Logs r ms₀ (pure a) Q := by
  rintro p ms b ms' q hp hms ⟨⟩
  exact ⟨hp, List.Subset.refl ms, h ms hms⟩

lemma logs_throw {fault : Fault} : Logs r ms₀ (throw fault : Traced α) Q := by
  rintro p ms a ms' q - - ⟨⟩

lemma Logs.bind (hx : Logs r ms₀ x Q)
    (hf : ∀ a ms, ms₀ ⊆ ms → Q ms a → Logs r ms (f a) R) : Logs r ms₀ (x >>= f) R := by
  intro p ms b ms'' s hp hms h
  obtain ⟨⟨a, ms'⟩, q, hxp, hfq⟩ := Step.of_run_bind (x := x.run ms) h
  obtain ⟨hq, hms', ha⟩ := hx p ms a ms' q hp hms hxp
  obtain ⟨hs, hms'', hb⟩ := hf a ms' (List.Subset.trans hms hms') ha q ms' b ms'' s hq
    (List.Subset.refl ms') hfq
  exact ⟨hs, List.Subset.trans hms' hms'', hb⟩

/-- What a result is does not always matter. -/
lemma Logs.seq (hx : Logs r ms₀ x Q) (hf : ∀ a, Logs r ms₀ (f a) R) :
    Logs r ms₀ (x >>= f) R :=
  hx.bind fun a _ hms _ p ms' b ms'' q hp hms' => hf a p ms' b ms'' q hp
    (List.Subset.trans hms hms')

lemma logs_done : Logs r ms₀ (pure ()) fun _ _ => True := logs_pure fun _ _ => trivial

lemma logs_known (h : Known ms₀ t) : Logs r ms₀ (pure t) Known := logs_pure fun _ => h.mono

lemma gives_lift {a : α} (h : Step.Gives ((liftM y : Traced α).run ms) p (a, ms') q) :
    Step.Gives y p a q ∧ ms' = ms := by
  obtain ⟨b, s, hy, ⟨⟩⟩ := Step.of_run_bind (f := fun b => pure (b, ms)) h
  exact ⟨hy, rfl⟩

/-- A step that makes no node and no triple gives results of one kind. -/
lemma logs_lift (hy : ∀ p, Step.Goes Still y p) (hQ : ∀ p a q, Step.Gives y p a q → ∀ ms, Q ms a) :
    Logs r ms₀ (liftM y) Q := by
  intro p ms a ms' q hp hms h
  obtain ⟨hy', rfl⟩ := gives_lift h
  exact ⟨hp.still (hy p a q hy'), List.Subset.refl ms', hQ p a q hy' ms'⟩

lemma logs_still (hy : ∀ p, Step.Goes Still y p) : Logs r ms₀ (liftM y) fun _ _ => True :=
  logs_lift hy fun _ _ _ _ _ => trivial

lemma logs_uses {k : Nat} (hy : ∀ p, Step.Goes (Step.Uses k) y p) :
    Logs r ms₀ (liftM y) fun _ _ => True :=
  logs_still fun p => (hy p).mono fun _ => Step.Uses.still

lemma logs_modify {g : Progress → Progress} (hg : ∀ p, Still p (g p)) :
    Logs r ms₀ (liftM (modify g : Step Unit)) fun _ _ => True :=
  logs_still fun p => Step.goes_modify (hg p)

/-! ### Nodes and triples -/

lemma logs_freshBlank : Logs r ms₀ freshBlank Known := by
  rintro p ms t ms' q hp hms ⟨⟩
  exact ⟨hp.minted rfl rfl rfl, List.subset_append_left ms _,
    known_of_mem (m := ⟨none, _⟩) (by simp)⟩

lemma logs_labelled : Logs r ms₀ labelled Known := by
  refine (logs_uses fun _ => Step.uses_drop).bind fun _ ms _ _ => ?_
  refine (logs_uses fun _ => Step.uses_lex fun _ _ => leaves_blankLabel).bind fun label ms _ _ => ?_
  rintro p ms t ms' q hp hms ⟨⟩
  exact ⟨hp.label, List.subset_append_left ms _, known_of_mem (m := ⟨some label, _⟩) (by simp)⟩

lemma logs_emit {s p o : Term} (hs : Known ms₀ s) (ho : Known ms₀ o) :
    Logs r ms₀ (liftM (Step.emit s p o)) fun _ _ => True := by
  rintro p ms a ms' q hp hms ⟨⟩
  exact ⟨hp.add (hs.mono hms) (ho.mono hms), List.Subset.refl ms, trivial⟩

lemma logs_emitCells {cells : List (Term × Term)}
    (h : ∀ c ∈ cells, Known ms₀ c.1 ∧ Known ms₀ c.2) :
    Logs r ms₀ (liftM (Step.emitCells cells)) fun _ _ => True := by
  induction cells generalizing ms₀ with
  | nil => exact logs_pure fun _ _ => trivial
  | cons c more ih =>
    obtain ⟨hcell, hitem⟩ := h c (by simp)
    have hcells (next : Term) (hnext : Known ms₀ next) : Logs r ms₀ (liftM (do
        Step.emit c.1 (.iri Vocabulary.rdfFirst) c.2
        Step.emit c.1 (.iri Vocabulary.rdfRest) next
        Step.emitCells more)) fun _ _ => True := by
      rw [liftM_bind]
      refine (logs_emit hcell hitem).seq fun _ => ?_
      rw [liftM_bind]
      exact (logs_emit hcell hnext).seq fun _ => ih fun d hd => h d (by simp [hd])
    cases more with
    | nil => exact hcells _ (known_of_isIri rfl)
    | cons d more => exact hcells d.1 (h d (by simp)).1

lemma logs_cons {ts : List Term} (ht : Known ms₀ t) (hts : ∀ u ∈ ts, Known ms₀ u) :
    Logs r ms₀ (pure (t :: ts)) fun ms us => ∀ u ∈ us, Known ms u := by
  refine logs_pure fun ms hms u hu => ?_
  rcases List.mem_cons.1 hu with rfl | hu
  · exact ht.mono hms
  · exact (hts u hu).mono hms

lemma logs_mapM_freshBlank {l : List β} : Logs r ms₀ (l.mapM fun _ => freshBlank)
    fun ms ts => ∀ t ∈ ts, Known ms t := by
  induction l generalizing ms₀ with
  | nil => exact logs_pure fun _ _ => by simp
  | cons b l ih =>
    rw [List.mapM_cons]
    exact logs_freshBlank.bind fun t ms _ ht => ih.bind fun ts ms' hms' hts =>
      logs_cons (ht.mono hms') hts

lemma logs_collectionOf {items : List Term} (h : ∀ t ∈ items, Known ms₀ t) :
    Logs r ms₀ (collectionOf items) Known := by
  refine logs_mapM_freshBlank.bind fun cells ms hms hcells => ?_
  have hzip : ∀ c ∈ cells.zip items, Known ms c.1 ∧ Known ms c.2 := fun c hc =>
    have hmem := List.of_mem_zip hc
    ⟨hcells c.1 hmem.1, (h c.2 hmem.2).mono hms⟩
  refine (logs_emitCells hzip).seq fun _ => logs_known ?_
  cases cells with
  | nil => exact known_of_isIri rfl
  | cons c more => exact hcells c (by simp)

lemma logs_name : Logs r ms₀ (liftM Step.name) Known :=
  logs_lift (fun _ => Step.uses_name.mono fun _ => Step.Uses.still) fun p t q h _ =>
    known_of_isIri (Step.keeps_name (J := fun _ => True) p q t h rfl trivial).2.2

lemma logs_literal : Logs r ms₀ (liftM Step.literal) Known :=
  logs_lift (fun _ => Step.uses_literal.mono fun _ => Step.Uses.still) fun p t q h _ =>
    known_of_isLiteral (Step.keeps_literal (J := fun _ => True) p q t h rfl trivial).2.2

lemma logs_numeral : Logs r ms₀ (liftM (Step.lex numeral)) Known := by
  refine logs_lift (fun _ => (Step.uses_lex fun _ _ => leaves_numeral).mono fun _ =>
    Step.Uses.still) fun p t q h _ => ?_
  obtain ⟨cs, hl, -⟩ := Step.gives_lex_iff.1 h
  exact known_of_isLiteral (isLiteral_of_numeral hl)

/-- What the four readers that call each other list. -/
structure Logging (r : Reader) (n : Nat) : Prop where
  object : ∀ ms, Logs r ms (object n) Known
  items : ∀ ms, Logs r ms (items n) fun ms ts => ∀ t ∈ ts, Known ms t
  objects : ∀ ms s p, Known ms s → Logs r ms (objects n s p) fun _ _ => True
  properties : ∀ ms s, Known ms s → Logs r ms (properties n s) fun _ _ => True

section Logging

variable {n : Nat} (h : Logging r n)

include h

lemma Logging.object_succ : Logs r ms₀ (Traced.object (n + 1)) Known := by
  rw [Traced.object]
  refine (logs_uses fun _ => Step.uses_blanks).seq fun _ => ?_
  refine (logs_uses fun _ => Step.uses_ahead).seq fun c => ?_
  refine (logs_uses fun _ => Step.uses_ahead).seq fun d => ?_
  split_ifs
  · -- brackets: the triples inside are about a fresh blank node
    refine (logs_uses fun _ => Step.uses_drop).seq fun _ => ?_
    refine logs_freshBlank.bind fun node ms _ hnode => ?_
    refine (logs_uses fun _ => Step.uses_blanks).seq fun _ => ?_
    refine (logs_uses fun _ => Step.uses_ahead).seq fun e => ?_
    have hclose : Logs r ms (do liftM (Step.expect ']'); pure node) Known :=
      (logs_uses fun _ => Step.uses_expect).seq fun _ => logs_known hnode
    dsimp only
    split
    · exact (h.properties ms node hnode).seq fun _ => hclose
    · exact hclose
  · refine (logs_uses fun _ => Step.uses_drop).seq fun _ => ?_
    refine (logs_uses fun _ => Step.uses_blanks).seq fun _ => ?_
    exact (h.items ms₀).bind fun ts ms _ hts => logs_collectionOf hts
  · exact logs_labelled
  · exact logs_literal
  · exact logs_numeral
  · refine (logs_uses fun _ => Step.uses_rest).seq fun cs => ?_
    cases htruth : truth? cs with
    | none => exact logs_name
    | some s =>
      have hliteral := isLiteral_of_truth? htruth
      exact Logs.seq (logs_modify fun _ => ⟨rfl, rfl, rfl⟩) fun _ =>
        logs_known (known_of_isLiteral hliteral)

lemma Logging.items_succ :
    Logs r ms₀ (Traced.items (n + 1)) fun ms ts => ∀ t ∈ ts, Known ms t := by
  rw [Traced.items]
  refine (logs_uses fun _ => Step.uses_ahead).seq fun c => ?_
  split
  · exact (logs_uses fun _ => Step.uses_drop).seq fun _ => logs_pure fun _ _ => by simp
  · refine (logs_uses fun _ => Step.uses_atEnd).seq fun e => ?_
    split
    · exact logs_throw
    · refine (h.object ms₀).bind fun t ms _ ht => ?_
      refine (logs_uses fun _ => Step.uses_blanks).seq fun _ => ?_
      exact (h.items ms).bind fun ts ms' hms' hts => logs_cons (ht.mono hms') hts

lemma Logging.objects_succ {s p : Term} (hs : Known ms₀ s) :
    Logs r ms₀ (Traced.objects (n + 1) s p) fun _ _ => True := by
  rw [Traced.objects]
  refine (h.object ms₀).bind fun o ms hms ho => ?_
  refine (logs_emit (hs.mono hms) ho).seq fun _ => ?_
  refine (logs_uses fun _ => Step.uses_blanks).seq fun _ => ?_
  refine (logs_uses fun _ => Step.uses_ahead).seq fun c => ?_
  split
  · exact (logs_uses fun _ => Step.uses_drop).seq fun _ => h.objects ms s p (hs.mono hms)
  · exact logs_done

lemma Logging.properties_succ {s : Term} (hs : Known ms₀ s) :
    Logs r ms₀ (Traced.properties (n + 1) s) fun _ _ => True := by
  rw [Traced.properties]
  refine (logs_uses fun _ => Step.uses_verb).seq fun p => (h.objects ms₀ s p hs).seq fun _ => ?_
  refine (logs_uses fun _ => Step.uses_blanks).seq fun _ => ?_
  refine (logs_uses fun _ => Step.uses_ahead).seq fun c => ?_
  split
  · refine Logs.seq (logs_modify fun _ => ⟨rfl, rfl, rfl⟩) fun _ => ?_
    refine (logs_uses fun _ => Step.uses_ahead).seq fun next => ?_
    refine (logs_uses fun _ => Step.uses_atEnd).seq fun e => ?_
    split
    · exact logs_done
    · exact h.properties ms₀ s hs
  · exact logs_done

end Logging

/-- The readers call each other with less fuel only, so the induction is on the fuel of all four. -/
lemma logging (n : Nat) : Logging r n := by
  induction n with
  | zero =>
    exact ⟨fun _ => logs_throw, fun _ => logs_throw, fun _ _ _ _ => logs_throw,
      fun _ _ _ => logs_throw⟩
  | succ n ih =>
    exact ⟨fun _ => ih.object_succ, fun _ => ih.items_succ, fun _ _ _ hs => ih.objects_succ hs,
      fun _ _ hs => ih.properties_succ hs⟩

/-! ### Whole documents -/

lemma logs_triples : Logs r ms₀ triples fun _ _ => True := by
  refine (logs_uses fun _ => Step.uses_blanks).seq fun _ => ?_
  refine (logs_uses fun _ => Step.uses_fuel).seq fun n => ?_
  refine (logs_uses fun _ => Step.uses_ahead).seq fun c => ?_
  have hn := logging (r := r) n
  split
  · refine (hn.object ms₀).bind fun s ms _ hs => ?_
    refine (logs_uses fun _ => Step.uses_blanks).seq fun _ => ?_
    refine (logs_uses fun _ => Step.uses_ahead).seq fun d => ?_
    split
    · exact hn.properties ms s hs
    · exact logs_done
  · refine (logs_uses fun _ => Step.uses_ahead).seq fun d => ?_
    split
    · exact (hn.object ms₀).bind fun s ms _ hs => hn.properties ms s hs
    · exact logs_name.bind fun s ms _ hs => hn.properties ms s hs

lemma logs_statement : Logs r ms₀ statement fun _ _ => True := by
  have hset (cs : List Char) : Logs r ms₀ (liftM (Step.setRest cs)) fun _ _ => True :=
    logs_modify fun _ => ⟨rfl, rfl, rfl⟩
  refine (logs_uses fun _ => Step.uses_rest).seq fun cs => ?_
  split
  · exact logs_still fun _ => Step.still_directive
  · cases afterKeyword? "PREFIX" cs with
    | some after => exact (hset after).seq fun _ => logs_still fun _ => Step.still_declaration
    | none =>
      cases afterKeyword? "BASE" cs with
      | some after => exact (hset after).seq fun _ => logs_still fun _ => Step.still_baseDeclaration
      | none => exact logs_triples.seq fun _ => logs_uses fun _ => Step.uses_expect

lemma logs_statements {n : Nat} : Logs r ms₀ (statements n) fun _ _ => True := by
  induction n with
  | zero => exact logs_throw
  | succ n ih =>
    rw [statements]
    refine (logs_uses fun _ => Step.uses_blanks).seq fun _ => ?_
    refine (logs_uses fun _ => Step.uses_atEnd).seq fun e => ?_
    split
    · exact logs_done
    · exact logs_statement.seq fun _ => ih

lemma logs_document : Logs r ms₀ document fun _ _ => True :=
  (logs_uses fun _ => Step.uses_rest).seq fun _ => logs_statements

/-- A step that reads what another one reads succeeds with it. -/
lemma Erases.gives {a : α} (h : Erases x y) (ms : List Mention) (hy : Step.Gives y p a q) :
    ∃ ms', Step.Gives (x.run ms) p (a, ms') q := by
  rw [← h ms, map_eq_pure_bind] at hy
  obtain ⟨⟨b, ms'⟩, s, hx, ⟨⟩⟩ := Step.of_run_bind hy
  exact ⟨ms', hx⟩

end Traced

variable {text : String} {g : Graph}

/-- The mentions of a document go with what is read of it. -/
lemma tracks_mentions (h : (r.read text).1 = .ok g) :
    Tracks r ⟨(r.read text).2, [], g⟩ (r.mentions text) := by
  have hempty : Tracks r ⟨r, text.toList, .empty⟩ [] :=
    ⟨rfl, rfl, rfl, by simp, fun t ht => by cases ht⟩
  unfold Reader.read Reader.run at h ⊢
  dsimp only at h ⊢
  split at h
  · rename_i q hq
    cases h
    obtain ⟨ms, hms⟩ := Traced.erases_document.gives [] hq
    have htracks := (Traced.logs_document _ _ _ _ _ hempty (List.Subset.refl []) hms).1
    have hmentions : r.mentions text = ms := by
      unfold Reader.mentions
      rw [show _ = (Except.ok ((), ms), q) from hms]
    rw [hmentions]
    exact ⟨htracks.blankPrefix, htracks.nextBlank, htracks.numbered, htracks.labelled,
      htracks.known⟩
  · cases h

/-! ### Fresh nodes -/

lemma minted_injective : Function.Injective r.minted := by
  intro n n' h
  exact natText_injective ((String.append_right_inj _).1 (Term.blank.inj h))

lemma labelled_eq_minted {l : String} {n : Nat} (h : l = "b" ++ natText n) :
    .blank (r.blankPrefix ++ l) = r.minted n := by
  rw [h, Reader.minted, String.append_assoc]

lemma eq_of_labelled_eq_minted {l : String} {n : Nat}
    (h : .blank (r.blankPrefix ++ l) = r.minted n) : l = "b" ++ natText n := by
  rw [Reader.minted, String.append_assoc] at h
  exact (String.append_right_inj _).1 (Term.blank.inj h)

lemma mem_anonymous_iff : t ∈ anonymous ms ↔ ∃ m ∈ ms, m.label = none ∧ m.node = t := by
  simp [anonymous, and_assoc]

lemma Tracks.mem_anonymous_iff (h : Tracks r p ms) :
    t ∈ anonymous ms ↔ ∃ n, r.nextBlank ≤ n ∧ n < p.reader.nextBlank ∧ t = r.minted n := by
  rw [h.numbered, h.nextBlank]
  simp [List.mem_range'_1, and_assoc, eq_comm]

/-- Nodes with different numbers are different. -/
lemma Tracks.nodup_anonymous (h : Tracks r p ms) : (anonymous ms).Nodup := by
  rw [h.numbered]
  exact List.Nodup.map minted_injective List.nodup_range'

/-- A node with a number can only be that of a label. -/
lemma Tracks.fresh_iff (h : Tracks r p ms) : Fresh ms ↔
    ∀ m ∈ ms, ∀ n, r.nextBlank ≤ n → n < p.reader.nextBlank →
      m.label ≠ some ("b" ++ natText n) := by
  constructor
  · intro hfresh m hm n hle hlt hl
    obtain ⟨m', hm', hnone, hnode⟩ :=
      Turtle.mem_anonymous_iff.1 (h.mem_anonymous_iff.2 ⟨n, hle, hlt, rfl⟩)
    have hne : m ≠ m' := by
      rintro rfl
      cases hl.symm.trans hnone
    refine List.Pairwise.forall hfresh hm hm' hne (.inr hnone) ?_
    rw [h.labelled m hm _ hl, hnode, labelled_eq_minted rfl]
  · intro hlabels
    -- an anonymous node and that of a label
    have hmixed : ∀ m ∈ ms, ∀ m' ∈ ms, m.label = none → m'.label ≠ none → m.node ≠ m'.node := by
      intro m hm m' hm' hnone hsome heq
      obtain ⟨l, hl⟩ := Option.ne_none_iff_exists'.1 hsome
      obtain ⟨n, hle, hlt, hn⟩ :=
        h.mem_anonymous_iff.1 (Turtle.mem_anonymous_iff.2 ⟨m, hm, hnone, rfl⟩)
      have hminted : .blank (r.blankPrefix ++ l) = r.minted n := by
        rw [← h.labelled m' hm' l hl, ← heq, hn]
      exact hlabels m' hm' n hle hlt (hl.trans (congrArg _ (eq_of_labelled_eq_minted hminted)))
    have hpairs := List.pairwise_filter.1 (List.pairwise_map.1 h.nodup_anonymous)
    refine hpairs.imp_of_mem fun {m m'} hm hm' hne hor => ?_
    rcases hl : m.label with _ | l <;> rcases hl' : m'.label with _ | l'
    · exact hne (by simp [hl]) (by simp [hl'])
    · exact hmixed m hm m' hm' hl (by simp [hl'])
    · exact (hmixed m' hm' m hm hl' (by simp [hl])).symm
    · simp [hl, hl'] at hor

/-- **Anonymous nodes** of an accepted document are fresh exactly if no label that is written in it
is the letter of numbered nodes and a number that the document uses up. The list of mentions has all
blank nodes of its triples. -/
theorem fresh_mentions_iff (h : (r.read text).1 = .ok g) :
    (∀ t ∈ g.triples, Known (r.mentions text) t.subject ∧ Known (r.mentions text) t.object) ∧
      (∀ m ∈ r.mentions text, ∀ l ∈ m.label, m.node = .blank (r.blankPrefix ++ l)) ∧
      (Fresh (r.mentions text) ↔
        ∀ m ∈ r.mentions text, ∀ n, r.nextBlank ≤ n → n < (r.read text).2.nextBlank →
          m.label ≠ some ("b" ++ natText n)) :=
  have htracks := tracks_mentions h
  ⟨htracks.known, htracks.labelled, htracks.fresh_iff⟩

/-- Brackets in a collection, and labels with and without a number behind the letter. -/
theorem fresh_mentions_brackets :
    (∃ g, ((Reader.new .empty "n").read "[ <urn:p> _:b ] <urn:q> ( [] 1 _:b7 ) .").1 = .ok g) ∧
      Fresh ((Reader.new .empty "n").mentions "[ <urn:p> _:b ] <urn:q> ( [] 1 _:b7 ) .") := by
  obtain ⟨g, hg, -⟩ := exists_ok_of_any (p := fun _ => true)
    (x := ((Reader.new .empty "n").read "[ <urn:p> _:b ] <urn:q> ( [] 1 _:b7 ) .").1)
    (by decide +kernel)
  have hnext : ((Reader.new .empty "n").read
      "[ <urn:p> _:b ] <urn:q> ( [] 1 _:b7 ) .").2.nextBlank = 5 := by decide +kernel
  have hlabels : ∀ m ∈ (Reader.new .empty "n").mentions "[ <urn:p> _:b ] <urn:q> ( [] 1 _:b7 ) .",
      ∀ n < 5, m.label ≠ some ("b" ++ natText n) := by decide +kernel
  exact ⟨⟨g, hg⟩, (fresh_mentions_iff hg).2.2.2 fun m hm n _ hlt => hlabels m hm n (hnext ▸ hlt)⟩

/-- A label has the text of the first number. -/
theorem bracket_not_fresh :
    ((Reader.new .empty "").read "<urn:a> <urn:p> [] . _:b0 <urn:q> <urn:b> .").1.map
        Graph.triples =
        .ok [⟨.iri "urn:a", .iri "urn:p", .blank "b0"⟩, ⟨.blank "b0", .iri "urn:q", .iri "urn:b"⟩] ∧
      (Reader.new .empty "").mentions "<urn:a> <urn:p> [] . _:b0 <urn:q> <urn:b> ." =
        [⟨none, .blank "b0"⟩, ⟨some "b0", .blank "b0"⟩] ∧
      ¬Fresh ((Reader.new .empty "").mentions "<urn:a> <urn:p> [] . _:b0 <urn:q> <urn:b> .") := by
  decide +kernel

end Semlift.Rdf.Turtle
