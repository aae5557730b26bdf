import Semlift.Proofs.Rdf.Turtle.Gives
import Semlift.Rdf.Writer

/-!
What a document tells. A sentence says something of one subject, with all of its predicates and
their objects; a directive declares a prefix. A document is read by reading its statements one
after the other, whatever gaps there are between them.
-/

namespace Semlift.Rdf.Turtle

open Semlift.Text

/-- A term with its text. -/
structure Word where
  text : String
  term : Term

/-- A predicate with its objects. -/
structure Clause where
  verb : Word
  objects : List Word

/-- A subject with its predicates. -/
structure Sentence where
  subject : Word
  clauses : List Clause

def Clause.text (c : Clause) : String :=
  c.verb.text ++ " " ++ join ", " (c.objects.map Word.text)

/-- The same with another separator of the objects. -/
def Clause.written (sep : String) (c : Clause) : String :=
  c.verb.text ++ " " ++ join sep (c.objects.map Word.text)

/-- Clauses with a gap of its own between each semicolon and the clause after it. -/
def clausesText (sep : String) : Clause → List (String × Clause) → String
  | c, [] => c.written sep
  | c, (gap, d) :: more => c.written sep ++ " ;" ++ gap ++ clausesText sep d more

def Clause.triples (subject : Term) (c : Clause) : List Triple :=
  c.objects.map fun o => ⟨subject, c.verb.term, o.term⟩

def Sentence.text (s : Sentence) : String :=
  s.subject.text ++ " " ++ join " ;\n    " (s.clauses.map Clause.text) ++ " ."

def Sentence.triples (s : Sentence) : List Triple :=
  s.clauses.flatMap (·.triples s.subject.term)

/-- The directive that declares a prefix. -/
def directiveText (e : String × String) : String := "@prefix " ++ e.1 ++ ": <" ++ e.2 ++ "> ."

structure Clause.Spelled (ps : Prefixes) (c : Clause) : Prop where
  verb : Verbs ps c.verb.text c.verb.term
  objects : ∀ o ∈ c.objects, Spells ps o.text o.term
  nonempty : c.objects ≠ []

structure Sentence.Spelled (ps : Prefixes) (s : Sentence) : Prop where
  subject : Spells ps s.subject.text s.subject.term
  node : s.subject.term.isLiteral = false
  clauses : ∀ c ∈ s.clauses, c.Spelled ps
  nonempty : s.clauses ≠ []

variable {ps : Prefixes} {r r' r'' : Reader} {g g' g'' : Graph} {c k : Clause} {s : Sentence}
  {os : List Word} {ks : List Clause} {more : List (String × Clause)} {sep : String} {d e : Char}
  {cs ds ws : List Char} {n : Nat}

lemma addAll_addAll {ts us : List Triple} : (g.addAll ts).addAll us = g.addAll (ts ++ us) :=
  (List.foldl_append ..).symm

/-! ### Enough fuel -/

/-- What the items of a list cost together. -/
def total {α : Type} (cost : α → Nat) : List α → Nat
  | [] => 0
  | a :: l => cost a + total cost l

lemma total_one {α : Type} {l : List α} : total (fun _ => 1) l = l.length := by
  induction l with
  | nil => rfl
  | cons a l ih => simp only [total, ih, List.length_cons, Nat.add_comm]

lemma total_le_length_join {α : Type} {sep : String} {cost : α → Nat} {text : α → String}
    {l : List α} (h : ∀ a ∈ l, cost a ≤ (text a).toList.length) :
    total cost l ≤ (join sep (l.map text)).toList.length := by
  induction l with
  | nil => exact Nat.zero_le _
  | cons a l ih =>
    have ha := h a (by simp)
    have hl := ih fun b hb => h b (by simp [hb])
    cases l with
    | nil => simpa [total] using ha
    | cons b l =>
      simp only [total, List.map_cons, join_cons_cons, String.toList_append,
        List.length_append] at *
      omega

lemma Names.length_pos {text iri : String} (h : Names ps text iri) : 0 < text.toList.length := by
  obtain ⟨c, more, htext, -⟩ := h.begins
  simp [htext]

lemma Spells.length_pos {text : String} {t : Term} (h : Spells ps text t) :
    0 < text.toList.length := by
  cases h with
  | iri h => exact h.length_pos
  | blank | tagged | typed | string => simp [quote]

lemma Verbs.length_pos {text : String} {t : Term} (h : Verbs ps text t) :
    0 < text.toList.length := by
  cases h with
  | type => decide
  | iri h => exact h.length_pos

/-- The calls that reading a predicate and its objects takes. -/
def Clause.calls (c : Clause) : Nat := c.objects.length + 2

/-- There are no more of them than characters. -/
lemma Clause.Spelled.calls_le (h : c.Spelled ps) : c.calls ≤ (c.written sep).toList.length := by
  have hverb := h.verb.length_pos
  have hobjects : total (fun _ => 1) c.objects ≤
      (join sep (c.objects.map Word.text)).toList.length :=
    total_le_length_join fun o ho => (h.objects o ho).length_pos
  rw [total_one] at hobjects
  simp only [Clause.calls, Clause.written, String.toList_append, List.length_append,
    String.reduceToList, List.length_singleton]
  omega

lemma total_calls_le (h : ∀ k ∈ c :: more.map Prod.snd, k.Spelled ps) :
    total Clause.calls (c :: more.map Prod.snd) ≤ (clausesText sep c more).toList.length := by
  have hc : c.calls ≤ (c.written sep).toList.length := (h c (by simp)).calls_le
  induction more generalizing c with
  | nil => simpa [total, clausesText] using hc
  | cons d more ih =>
    have hd : ∀ k ∈ d.2 :: more.map Prod.snd, k.Spelled ps := fun k hk => h k (by simp at hk ⊢; tauto)
    have hrest := ih hd ((hd d.2 (by simp)).calls_le)
    simp only [List.map_cons, total, clausesText, String.toList_append, List.length_append] at *
    omega

lemma Verbs.begins {text : String} {t : Term} (h : Verbs ps text t) :
    ∃ c more, text.toList = c :: more ∧ begins c = true := by
  cases h with
  | type => exact ⟨'a', [], rfl, by decide⟩
  | iri h => exact h.begins

lemma begins_clausesText (cs : List Char) (h : c.Spelled ps) :
    ∃ d rest, (clausesText sep c more).toList ++ cs = d :: rest ∧ begins d = true := by
  obtain ⟨d, rest, hhead, hd⟩ := h.verb.begins
  cases more with
  | nil => exact ⟨d, _, by simp [clausesText, Clause.written, hhead]; rfl, hd⟩
  | cons e more => exact ⟨d, _, by simp [clausesText, Clause.written, hhead]; rfl, hd⟩

/-- Clauses of one layout, each on a line of its own. -/
lemma clausesText_lines :
    clausesText ", " c (ks.map ("\n    ", ·)) = join " ;\n    " ((c :: ks).map Clause.text) := by
  induction ks generalizing c with
  | nil => rfl
  | cons k ks ih =>
    have hsep : " ;" ++ "\n    " = " ;\n    " := rfl
    have htext : c.written ", " ++ " ;" ++ "\n    " = c.text ++ " ;\n    " := by
      rw [String.append_assoc, hsep]
      rfl
    rw [List.map_cons, clausesText, ih, htext]
    rfl

/-- The word of a subject ends with a character that is neither a letter nor a blank. -/
lemma Spells.word {text : String} {t : Term} (h : Spells ps text t) (ht : t.isLiteral = false) :
    ∃ w d more, text.toList = w ++ d :: more ∧ (∀ c ∈ w, isTagChar c = true) ∧
      (d = ':' ∨ d = '<' ∨ d = '_') := by
  cases h with
  | iri h =>
    obtain ⟨w, d, more, htext, hw, -, hd⟩ := h.word
    exact ⟨w, d, more, htext, hw, hd.imp_right fun h => .inl h.2⟩
  | @blank label => exact ⟨[], '_', ':' :: label.toList, by simp, by simp, .inr (.inr rfl)⟩
  | tagged | typed | string => cases ht

lemma Sentence.Spelled.opens (h : s.Spelled ps) :
    ∃ c more, s.text.toList = c :: more ∧ Opens c := by
  obtain ⟨w, d, more, hword, hw, hd⟩ := h.subject.word h.node
  cases w with
  | nil =>
    refine ⟨d, _, by simp [Sentence.text, hword]; rfl, ?_⟩
    rcases hd with rfl | rfl | rfl <;> exact ⟨by decide, by decide⟩
  | cons c w =>
    exact ⟨c, _, by simp [Sentence.text, hword]; rfl,
      opens_of_isNameChar (isNameChar_of_isTagChar (hw c (by simp)))⟩

namespace Step

/-! ### Sentences -/

/-- Objects between commas, with or without a space in front of each. -/
lemma gives_objects {subject predicate : Term} (hsep : sep = ", " ∨ sep = " , ")
    (hr : r.base = "") (hb : ∀ o ∈ os, o.term.isBlank = true → r.blankPrefix = "")
    (h : ∀ o ∈ os, Spells r.prefixes o.text o.term) (hne : os ≠ []) (hn : os.length < n)
    (hws : Gap ws) (he : Opens e) (hcomma : e ≠ ',') :
    Gives (objects n subject predicate)
      ⟨r, ws ++ ((join sep (os.map Word.text)).toList ++ ' ' :: e :: cs), g⟩ ()
      ⟨r, e :: cs, g.addAll (os.map fun o => ⟨subject, predicate, o.term⟩)⟩ := by
  induction os generalizing n ws g with
  | nil => exact absurd rfl hne
  | cons o os ih =>
    obtain ⟨m, rfl⟩ : ∃ m, n = m + 2 := ⟨n - 2, by simp at hn; omega⟩
    have ho := h o (by simp)
    have hob := hb o (by simp)
    rw [objects]
    cases os with
    | nil =>
      refine (gives_object hr hob ho (.inl rfl) hws).bind (gives_emit.bind ?_)
      refine (gives_gap gap_space (skip_cons he)).bind (gives_ahead.bind ?_)
      rw [if_neg (by simpa [at'] using hcomma)]
      exact gives_pure
    | cons o' os =>
      -- the gap after the comma belongs to the next object
      have hrest := ih (n := m + 1) (g := g.add ⟨subject, predicate, o.term⟩)
        (fun o ho => hb o (by simp [ho])) (fun o ho => h o (by simp [ho])) (by simp)
        (by simp at hn ⊢; omega) gap_space
      rcases hsep with rfl | rfl
      · have htext : (join ", " ((o :: o' :: os).map Word.text)).toList ++ ' ' :: e :: cs =
            o.text.toList ++ ',' :: ' ' ::
              ((join ", " ((o' :: os).map Word.text)).toList ++ ' ' :: e :: cs) := by
          simp
        rw [htext]
        refine (gives_object hr hob ho (.inr rfl) hws).bind (gives_emit.bind ?_)
        exact (gives_gap gap_nil (skip_cons ⟨by decide, by decide⟩)).bind
          (gives_ahead.bind (gives_drop.bind hrest))
      · have htext : (join " , " ((o :: o' :: os).map Word.text)).toList ++ ' ' :: e :: cs =
            o.text.toList ++ ' ' :: ',' :: ' ' ::
              ((join " , " ((o' :: os).map Word.text)).toList ++ ' ' :: e :: cs) := by
          simp
        rw [htext]
        refine (gives_object hr hob ho (.inl rfl) hws).bind (gives_emit.bind ?_)
        exact (gives_gap gap_space (skip_cons ⟨by decide, by decide⟩)).bind
          (gives_ahead.bind (gives_drop.bind hrest))

/-- Between two clauses there are a semicolon and a gap. -/
lemma gives_semicolon (hws : Gap ws) (he : begins e = true) :
    Gives (modify fun p => { p with rest := skipSemicolons p.rest })
      ⟨r, ';' :: (ws ++ e :: cs), g⟩ () ⟨r, e :: cs, g⟩ := by
  have hgap : ∀ d ∈ ';' :: ws, (isBlank d || d == ';') = true ∧ d ≠ '#' := by
    intro d hd
    rcases List.mem_cons.1 hd with rfl | hd
    · decide
    · exact ⟨by simp [hws d hd], by rintro rfl; exact absurd (hws _ hd) (by decide)⟩
  have hskip : skipSemicolons ((';' :: ws) ++ e :: cs) = e :: cs :=
    (skipFrom_append hgap).trans
      (skipSemicolons_cons (opens_of_begins he) (by rintro rfl; cases he))
  exact gives_modify.trans (by rw [← List.cons_append, hskip])

/-- A predicate and its objects, up to what ends them. -/
lemma gives_clause {x : Step Unit} {subject : Term} {q : Progress}
    (hsep : sep = ", " ∨ sep = " , ") (hr : r.base = "")
    (hb : ∀ o ∈ k.objects, o.term.isBlank = true → r.blankPrefix = "")
    (hk : k.Spelled r.prefixes) (hn : k.calls ≤ n + 1) (hws : Gap ws) (he : Opens e)
    (hcomma : e ≠ ',') (hx : Gives x ⟨r, e :: cs, g.addAll (k.triples subject)⟩ () q) :
    Gives (do let predicate ← verb; objects n subject predicate; blanks; x)
      ⟨r, ws ++ ((k.written sep).toList ++ ' ' :: e :: cs), g⟩ () q := by
  have htext : (k.written sep).toList ++ ' ' :: e :: cs = k.verb.text.toList ++ ' ' ::
      ((join sep (k.objects.map Word.text)).toList ++ ' ' :: e :: cs) := by
    simp [Clause.written]
  rw [htext]
  refine (gives_verb hr hk.verb hws).bind ?_
  refine (gives_objects hsep hr hb hk.objects hk.nonempty ?_ gap_space he hcomma).bind ?_
  · simp only [Clause.calls] at hn
    omega
  · exact (gives_gap gap_nil (skip_cons he)).bind hx

lemma gives_clauses {subject : Term} (hsep : sep = ", " ∨ sep = " , ") (hr : r.base = "")
    (hb : ∀ k ∈ c :: more.map Prod.snd, ∀ o ∈ k.objects, o.term.isBlank = true →
      r.blankPrefix = "")
    (h : ∀ k ∈ c :: more.map Prod.snd, k.Spelled r.prefixes) (hgaps : ∀ d ∈ more, Gap d.1.toList)
    (hn : total Clause.calls (c :: more.map Prod.snd) ≤ n) (hws : Gap ws) :
    Gives (properties n subject)
      ⟨r, ws ++ ((clausesText sep c more).toList ++ ' ' :: '.' :: cs), g⟩ ()
      ⟨r, '.' :: cs, g.addAll ((c :: more.map Prod.snd).flatMap (·.triples subject))⟩ := by
  induction more generalizing c n ws g with
  | nil =>
    simp only [List.map_nil, total, Clause.calls] at hn
    obtain ⟨m, rfl⟩ : ∃ m, n = m + 1 := ⟨n - 1, by omega⟩
    rw [properties]
    refine gives_clause hsep hr (hb c (by simp)) (h c (by simp)) (by simp [Clause.calls]; omega)
      hws ⟨by decide, by decide⟩ (by decide) ?_
    simp only [List.map_nil, List.flatMap_cons, List.flatMap_nil, List.append_nil]
    exact gives_ahead.bind gives_pure
  | cons d more ih =>
    simp only [List.map_cons, total, Clause.calls] at hn
    obtain ⟨m, rfl⟩ : ∃ m, n = m + 1 := ⟨n - 1, by omega⟩
    obtain ⟨e, rest, hhead, he⟩ : ∃ e rest, (clausesText sep d.2 more).toList ++
        ' ' :: '.' :: cs = e :: rest ∧ begins e = true :=
      begins_clausesText _ (h d.2 (by simp))
    have htext : (clausesText sep c (d :: more)).toList ++ ' ' :: '.' :: cs =
        (c.written sep).toList ++ ' ' :: ';' :: (d.1.toList ++ e :: rest) := by
      rw [← hhead]
      simp [clausesText]
    have hrest := ih (c := d.2) (n := m) (g := g.addAll (c.triples subject))
      (fun k hk => hb k (by simp at hk ⊢; tauto)) (fun k hk => h k (by simp at hk ⊢; tauto))
      (fun d hd => hgaps d (by simp [hd])) (by simp only [total, Clause.calls]; omega) gap_nil
    rw [List.nil_append, hhead] at hrest
    rw [htext, List.map_cons, List.flatMap_cons, ← addAll_addAll, properties]
    refine gives_clause hsep hr (hb c (by simp)) (h c (by simp)) (by simp [Clause.calls]; omega)
      hws ⟨by decide, by decide⟩ (by decide) ?_
    refine gives_ahead.bind
      ((gives_semicolon (hgaps d (by simp)) he).bind (gives_ahead.bind (gives_atEnd.bind ?_)))
    rw [if_neg (by simp [at', beq_of_begins he (by decide : begins '.' = false),
      beq_of_begins he (by decide : begins ']' = false)])]
    exact hrest

lemma gives_triples_name {t : Term} {q q' : Progress} (he : begins e = true)
    (hx : Gives name ⟨r, e :: cs, g⟩ t q)
    (hp : Gives (properties (3 * (e :: cs).length + 3) t) q () q') :
    Gives triples ⟨r, e :: cs, g⟩ () q' := by
  refine (gives_gap gap_nil (skip_cons (opens_of_begins he))).bind
    (gives_fuel.bind (gives_ahead.bind ?_))
  have h₀ : at' (e :: cs) 0 = e := rfl
  simp only [h₀, beq_of_begins he (by decide : begins '[' = false),
    beq_of_begins he (by decide : begins '(' = false),
    beq_of_begins he (by decide : begins '_' = false), Bool.false_and, Bool.or_false,
    Bool.false_eq_true, if_false]
  exact gives_ahead.bind (hx.bind hp)

lemma gives_triples_labelled {t : Term} {q q' : Progress}
    (hx : Gives labelled ⟨r, '_' :: ':' :: cs, g⟩ t q)
    (hp : Gives (properties (3 * ('_' :: ':' :: cs).length + 3) t) q () q') :
    Gives triples ⟨r, '_' :: ':' :: cs, g⟩ () q' := by
  refine (gives_gap gap_nil (skip_cons ⟨by decide, by decide⟩)).bind
    (gives_fuel.bind (gives_ahead.bind (gives_ahead.bind ?_)))
  exact (gives_object_labelled gap_nil hx).bind hp

/-- A subject is read from each of its spellings. -/
lemma gives_subject {text : String} {t : Term} {q : Progress} (hr : r.base = "")
    (hb : t.isBlank = true → r.blankPrefix = "") (h : Spells r.prefixes text t)
    (ht : t.isLiteral = false)
    (hp : Gives (properties (3 * (text.toList ++ ' ' :: cs).length + 3) t) ⟨r, ' ' :: cs, g⟩ () q) :
    Gives triples ⟨r, text.toList ++ ' ' :: cs, g⟩ () q := by
  cases h with
  | iri h =>
    have hname : Gives name ⟨r, text.toList ++ ' ' :: cs, g⟩ _ ⟨r, ' ' :: cs, g⟩ :=
      gives_name hr h (.inl rfl) gap_nil
    obtain ⟨c, more, htext, hc⟩ := h.begins
    rw [htext] at hname hp ⊢
    exact gives_triples_name hc hname hp
  | blank h =>
    have hlabelled : Gives labelled ⟨r, '_' :: ':' :: (_ ++ ' ' :: cs), g⟩ _ ⟨r, ' ' :: cs, g⟩ :=
      gives_labelled (hb rfl) h (.inl rfl)
    simp only [String.toList_append, String.reduceToList, List.cons_append, List.nil_append]
      at hp ⊢
    exact gives_triples_labelled hlabelled hp
  | tagged | typed | string => cases ht

/-- A statement that begins with the word of a subject is no directive. -/
lemma gives_statement {w more : List Char} {q : Progress} (hw : ∀ c ∈ w, isTagChar c = true)
    (hd : d = ':' ∨ d = '<' ∨ d = '_')
    (hx : Gives (do triples; expect '.') ⟨r, w ++ d :: more, g⟩ () q) :
    Gives statement ⟨r, w ++ d :: more, g⟩ () q := by
  have hd' : d ∈ [':', '<', '_', '[', '('] := by rcases hd with rfl | rfl | rfl <;> decide
  exact (run_statement (fun c hc => isNameChar_of_isTagChar (hw c hc)) hd').trans hx

/-- A subject with its clauses is read as a statement, in each of the layouts. -/
lemma gives_clausesText {w : Word} (more : List (String × Clause)) (cs : List Char) (hsep : sep = ", " ∨ sep = " , ") (hr : r.base = "")
    (hb : r.blankPrefix = "" ∨ w.term.isBlank = false ∧
      ∀ k ∈ c :: more.map Prod.snd, ∀ o ∈ k.objects, o.term.isBlank = false)
    (hw : Spells r.prefixes w.text w.term) (hnode : w.term.isLiteral = false)
    (h : ∀ k ∈ c :: more.map Prod.snd, k.Spelled r.prefixes) (hgaps : ∀ d ∈ more, Gap d.1.toList) :
    Gives statement ⟨r, w.text.toList ++ ' ' :: ((clausesText sep c more).toList ++
        ' ' :: '.' :: cs), g⟩ ()
      ⟨r, cs, g.addAll ((c :: more.map Prod.snd).flatMap (·.triples w.term))⟩ := by
  have hcalls : total Clause.calls (c :: more.map Prod.snd) ≤
      (clausesText sep c more).toList.length := total_calls_le h
  have hbo : ∀ k ∈ c :: more.map Prod.snd, ∀ o ∈ k.objects, o.term.isBlank = true →
      r.blankPrefix = "" := fun k hk o ho ht => hb.resolve_right fun hn => by simp [hn.2 k hk o ho] at ht
  have htriples : Gives triples ⟨r, w.text.toList ++ ' ' :: ((clausesText sep c more).toList ++
      ' ' :: '.' :: cs), g⟩ () ⟨r, '.' :: cs,
        g.addAll ((c :: more.map Prod.snd).flatMap (·.triples w.term))⟩ := by
    refine gives_subject hr (fun ht => hb.resolve_right fun hn => by simp [hn.1] at ht) hw hnode ?_
    refine gives_clauses hsep hr hbo h hgaps ?_ gap_space
    simp only [List.length_append, List.length_cons]
    omega
  have hstatement : Gives (do triples; expect '.') ⟨r, w.text.toList ++ ' ' ::
      ((clausesText sep c more).toList ++ ' ' :: '.' :: cs), g⟩ () ⟨r, cs,
        g.addAll ((c :: more.map Prod.snd).flatMap (·.triples w.term))⟩ :=
    htriples.bind (gives_expect gap_nil ⟨by decide, by decide⟩)
  obtain ⟨v, d, rest, hword, hv, hd⟩ := hw.word hnode
  rw [hword, List.append_assoc, List.cons_append] at hstatement ⊢
  exact gives_statement hv hd hstatement

/-- **A sentence** is read as a statement. -/
lemma gives_sentence (hr : r.Bare) (h : s.Spelled r.prefixes) :
    Gives statement ⟨r, s.text.toList ++ cs, g⟩ () ⟨r, cs, g.addAll s.triples⟩ := by
  obtain ⟨subject, clauses⟩ := s
  cases clauses with
  | nil => exact absurd rfl h.nonempty
  | cons c ks =>
    have hks : (ks.map ("\n    ", ·)).map Prod.snd = ks := by simp [Function.comp_def]
    have htext : (Sentence.mk subject (c :: ks)).text.toList ++ cs = subject.text.toList ++ ' ' ::
        ((clausesText ", " c (ks.map ("\n    ", ·))).toList ++ ' ' :: '.' :: cs) := by
      simp [Sentence.text, clausesText_lines]
    have hgap : ∀ d ∈ ks.map fun k => ("\n    ", k), Gap d.1.toList := by
      intro d hd
      obtain ⟨k, -, rfl⟩ := List.mem_map.1 hd
      simp [Gap, isBlank]
    have hgives := gives_clausesText (g := g) (ks.map ("\n    ", ·)) cs (.inl rfl) hr.base
      (.inl hr.blankPrefix) h.subject h.node (by rw [hks]; exact h.clauses) hgap
    rw [hks] at hgives
    rw [htext]
    exact hgives

/-! ### Directives -/

lemma gives_declaration {declared ns : String} (hr : r.Bare) (h : PrefixText declared)
    (hns : Enclosable ns) :
    Gives declaration ⟨r, ' ' :: (declared.toList ++ ':' :: ' ' :: '<' ::
        (ns.toList ++ '>' :: cs)), g⟩ ()
      ⟨{ r with prefixes := r.prefixes.add declared ns }, cs, g⟩ := by
  have hchars : ∀ c ∈ declared.toList, isNameChar c = true :=
    fun c hc => isNameChar_of_isTagChar (h.2 c hc)
  have hskip : ∀ more, skip (declared.toList ++ ':' :: more) = declared.toList ++ ':' :: more := by
    intro more
    cases hd : declared.toList with
    | nil => exact skip_cons ⟨by decide, by decide⟩
    | cons c w => exact skip_cons (opens_of_isNameChar (hchars c (by simp [hd])))
  refine (gives_gap gap_space (hskip _)).bind ?_
  refine (gives_lex (prefixName_append hchars)).bind (gives_drop.bind ?_)
  refine (gives_gap gap_space (skip_cons ⟨by decide, by decide⟩)).bind ?_
  refine (gives_reference hr.base hns).bind ?_
  rw [String.ofList_toList]
  rfl

/-- **A directive** declares a prefix. -/
lemma gives_directive {e : String × String} (hr : r.Bare) (h : PrefixText e.1)
    (hns : Enclosable e.2) :
    Gives statement ⟨r, (directiveText e).toList ++ cs, g⟩ ()
      ⟨{ r with prefixes := r.prefixes.add e.1 e.2 }, cs, g⟩ := by
  have htext : (directiveText e).toList ++ cs =
      '@' :: ("prefix".toList ++ ' ' :: (e.1.toList ++ ':' :: ' ' :: '<' ::
        (e.2.toList ++ '>' :: ' ' :: '.' :: cs))) := by
    simp [directiveText]
  have hletters : ∀ c ∈ "prefix".toList, c.isAlpha = true :=
    List.all_eq_true.1 (by decide : "prefix".toList.all Char.isAlpha = true)
  rw [htext]
  refine gives_rest.bind ?_
  dsimp only
  rw [if_pos (by rfl)]
  refine gives_drop.bind (gives_rest.bind ?_)
  dsimp only
  rw [List.drop_one, List.tail_cons, List.takeWhile_append_of_pos hletters,
    List.dropWhile_append_of_pos hletters]
  refine gives_setRest.bind ?_
  dsimp only
  rw [if_pos (by simp)]
  exact (gives_declaration hr h hns).bind
    (gives_expect gap_space ⟨by decide, by decide⟩)

/-! ### Documents -/

/-- A text made of statements and gaps, with the reader and the graph before and after it. -/
inductive Tells : List Char → Reader → Graph → Reader → Graph → Prop
  | nil {r : Reader} {g : Graph} : Tells [] r g r g
  | gap {c : Char} {cs : List Char} {r r' : Reader} {g g' : Graph} (hc : isBlank c = true)
      (h : Tells cs r g r' g') : Tells (c :: cs) r g r' g'
  | cons {text cs : List Char} {r r' r'' : Reader} {g g' g'' : Graph}
      (htext : ∃ c more, text = c :: more ∧ Opens c)
      (hx : ∀ cs, Gives statement ⟨r, text ++ cs, g⟩ () ⟨r', cs, g'⟩)
      (h : Tells cs r' g' r'' g'') : Tells (text ++ cs) r g r'' g''

lemma Tells.append (h : Tells cs r g r' g') (h' : Tells ds r' g' r'' g'') :
    Tells (cs ++ ds) r g r'' g'' := by
  induction h with
  | nil => exact h'
  | gap hc _ ih => exact .gap hc (ih h')
  | cons htext hx _ ih =>
    rw [List.append_assoc]
    exact .cons htext hx (ih h')

lemma statements_of_skip (h : skip cs = skip ds) :
    (statements (n + 1)).run.run ⟨r, cs, g⟩ = (statements (n + 1)).run.run ⟨r, ds, g⟩ := by
  have hblanks : blanks.run.run ⟨r, cs, g⟩ = blanks.run.run ⟨r, ds, g⟩ := by
    show (_, Progress.mk r (skip cs) g) = (_, Progress.mk r (skip ds) g)
    rw [h]
  rw [statements, ExceptT.run_bind, StateT.run_bind, StateT.run_bind, hblanks]

/-- **What a text tells is read** from it. -/
lemma Tells.gives (h : Tells cs r g r' g') (hn : cs.length < n) :
    Gives (statements n) ⟨r, cs, g⟩ () ⟨r', [], g'⟩ := by
  induction h generalizing n with
  | nil =>
    obtain ⟨m, rfl⟩ : ∃ m, n = m + 1 := ⟨n - 1, by simp at hn; omega⟩
    exact gives_blanks.bind (gives_atEnd.bind gives_pure)
  | @gap c cs _ _ _ _ hc _ ih =>
    -- one round skips the whole gap, so a shorter gap makes no difference
    obtain ⟨m, rfl⟩ : ∃ m, n = m + 1 := ⟨n - 1, by simp at hn; omega⟩
    have hskip : skip (c :: cs) = skip cs := skip_append (by simpa [Gap] using hc : Gap [c])
    exact (statements_of_skip hskip).trans (ih (by simp at hn; omega))
  | cons htext hx _ ih =>
    obtain ⟨m, rfl⟩ : ∃ m, n = m + 1 := ⟨n - 1, by omega⟩
    obtain ⟨c, more, rfl, hc⟩ := htext
    refine (gives_gap gap_nil (skip_cons hc)).bind (gives_atEnd.bind ?_)
    exact (hx _).bind (ih (by simp at hn; omega))

lemma toList_lines {α : Type} {text : α → String} {a : α} {l : List α} :
    (String.join ((a :: l).map (text · ++ "\n"))).toList =
      (text a).toList ++ '\n' :: (String.join (l.map (text · ++ "\n"))).toList := by
  simp [String.toList_join]

/-- **The header** declares its prefixes. -/
lemma tells_header {es : List (String × String)} (hr : r.Bare)
    (hes : ∀ e ∈ es, PrefixText e.1 ∧ Enclosable e.2) :
    Tells (String.join (es.map (directiveText · ++ "\n"))).toList r g
      { r with prefixes := r.prefixes.addAll es } g := by
  induction es generalizing r with
  | nil => exact .nil
  | cons e es ih =>
    obtain ⟨hname, hns⟩ := hes e (by simp)
    have hopens : ∃ c more, (directiveText e).toList = c :: more ∧ Opens c :=
      ⟨'@', _, by simp [directiveText]; rfl, by decide, by decide⟩
    have hrest := ih (r := { r with prefixes := r.prefixes.add e.1 e.2 })
      ⟨hr.base, hr.blankPrefix⟩ fun e he => hes e (by simp [he])
    rw [toList_lines]
    exact .cons hopens (fun _ => gives_directive hr hname hns) (.gap (by decide) hrest)

/-- **Sentences** tell their triples. -/
lemma tells_sentences {ss : List Sentence} (hr : r.Bare)
    (hss : ∀ s ∈ ss, s.Spelled r.prefixes) :
    Tells (String.join (ss.map (·.text ++ "\n"))).toList r g r
      (g.addAll (ss.flatMap Sentence.triples)) := by
  induction ss generalizing g with
  | nil => exact .nil
  | cons s ss ih =>
    have hs := hss s (by simp)
    have hrest := ih (g := g.addAll s.triples) fun s hs => hss s (by simp [hs])
    rw [toList_lines, List.flatMap_cons, ← addAll_addAll]
    exact .cons hs.opens (fun _ => gives_sentence hr hs) (.gap (by decide) hrest)

end Step

lemma read_of_tells {text : String} (h : Step.Tells text.toList r .empty r' g) :
    r.read text = (.ok g, r') := by
  have hx : Step.Gives Step.document ⟨r, text.toList, .empty⟩ () ⟨r', [], g⟩ :=
    Step.gives_rest.bind (h.gives (Nat.lt_succ_self _))
  exact read_of_gives hx

end Semlift.Rdf.Turtle
