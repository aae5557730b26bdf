import Semlift.Proofs.Rdf.Turtle.Lexeme
import Semlift.Rdf.Turtle.Reader

/-!
What reading gives. A text spells a term when the term is read from it wherever a term may end: an
IRI is spelled in angle brackets or by a declared prefix, a literal with its language or datatype.
A predicate has a short form more.
-/

namespace Semlift.Rdf.Turtle

open Semlift.Text

/-- The spellings of an IRI. -/
inductive Names (ps : Prefixes) : String → String → Prop
  | bracketed {iri : String} (h : Enclosable iri) : Names ps ("<" ++ iri ++ ">") iri
  | prefixed {name ns : String} {loc : List Char} (h : PrefixText name)
      (hns : ps.find? name = some ns) (hloc : ∀ c ∈ loc, Prefixes.isPlain c = true) :
      Names ps (name ++ ":" ++ String.ofList loc) (ns ++ String.ofList loc)

/-- The spellings of a term. -/
inductive Spells (ps : Prefixes) : String → Term → Prop
  | iri {text iri : String} (h : Names ps text iri) : Spells ps text (.iri iri)
  | blank {label : String} (h : Label label) : Spells ps ("_:" ++ label) (.blank label)
  | tagged {lexical language : String} (h : Tag language) :
      Spells ps (quote lexical ++ "@" ++ language) (.langString lexical language)
  | typed {lexical text datatype : String} (h : Names ps text datatype) :
      Spells ps (quote lexical ++ "^^" ++ text) (.typed lexical datatype)
  | string {lexical : String} : Spells ps (quote lexical) (.string lexical)

/-- The spellings of a predicate. -/
inductive Verbs (ps : Prefixes) : String → Term → Prop
  | type : Verbs ps "a" (.iri Vocabulary.rdfType)
  | iri {text iri : String} (h : Names ps text iri) : Verbs ps text (.iri iri)

/-- A reader that takes references and labels as they are written. -/
structure Reader.Bare (r : Reader) : Prop where
  base : r.base = ""
  blankPrefix : r.blankPrefix = ""

variable {ps : Prefixes} {text iri : String} {t : Term} {r : Reader} {g : Graph} {c d : Char}
  {cs ws : List Char} {n : Nat}

/-- The word of a name: a declared prefix to its colon, or nothing in front of the bracket. -/
lemma Names.word (h : Names ps text iri) : ∃ w d more, text.toList = w ++ d :: more ∧
    (∀ c ∈ w, isTagChar c = true) ∧ (∀ c ∈ w.head?, c.isAlpha = true) ∧
      (d = ':' ∨ w = [] ∧ d = '<') := by
  cases h with
  | bracketed => exact ⟨[], '<', iri.toList ++ ['>'], by simp, by simp, by simp, .inr ⟨rfl, rfl⟩⟩
  | prefixed h => exact ⟨_, ':', _, by simp; rfl, h.2, h.1, .inl rfl⟩

/-- The characters that a name can begin with. -/
def begins (c : Char) : Bool := c == '<' || c == ':' || c.isAlpha

lemma Names.begins (h : Names ps text iri) :
    ∃ c more, text.toList = c :: more ∧ begins c = true := by
  obtain ⟨w, d, more, htext, -, hhead, hd⟩ := h.word
  cases w with
  | nil => exact ⟨d, more, htext, by rcases hd with rfl | ⟨-, rfl⟩ <;> rfl⟩
  | cons c w => exact ⟨c, w ++ d :: more, htext, by simp [Turtle.begins, hhead c rfl]⟩

lemma opens_of_begins (h : begins c = true) : Opens c := by
  simp only [begins, Bool.or_eq_true, beq_iff_eq] at h
  rcases h with (rfl | rfl) | h
  · exact ⟨by decide, by decide⟩
  · exact ⟨by decide, by decide⟩
  · exact opens_of_isNameChar (by simp [isNameChar, isNameStart, h])

lemma beq_of_begins (h : begins c = true) (hd : begins d = false) : (c == d) = false := by
  refine beq_false_of_ne ?_
  rintro rfl
  rw [h] at hd
  cases hd

lemma isDigit_of_begins (h : begins c = true) : c.isDigit = false := by
  by_contra hc
  have hle : c.toNat < 58 := by
    have : c.val ≤ 57 := by simpa [Char.isDigit] using (by simpa [Char.isDigit] using hc : _ ∧ _).2
    exact Nat.lt_succ_of_le (UInt32.le_iff_toNat_le.1 this)
  have key : ∀ n < 58, begins (Char.ofNat n) = false := by decide
  have hb := key c.toNat hle
  rw [Char.ofNat_toNat, h] at hb
  cases hb

lemma Names.truth?_eq_none (h : Names ps text iri) :
    truth? (text.toList ++ d :: cs) = none := by
  cases h with
  | bracketed => simp [truth?, afterPrefix?]
  | prefixed h => simpa using Turtle.truth?_eq_none fun c hc => isNameChar_of_isTagChar (h.2 c hc)

/-- What follows the first character of a name cannot make it the short form. -/
lemma Names.second (h : Names ps text iri) (ha : text.toList.head? = some 'a') :
    ∃ e more, text.toList = 'a' :: e :: more ∧ (e = ':' ∨ isTagChar e = true) := by
  obtain ⟨w, d, more, htext, hw, -, hd⟩ := h.word
  rw [htext] at ha ⊢
  match w, hw with
  | [], _ => rcases hd with rfl | ⟨-, rfl⟩ <;> simp at ha
  | [c], _ =>
    have hd : d = ':' := hd.resolve_right fun h => by simp at h
    exact ⟨d, more, by simpa using ha, .inl hd⟩
  | c :: e :: w, hw => exact ⟨e, w ++ d :: more, by simpa using ha, .inr (hw e (by simp))⟩

/-- A predicate is written short: its letter is followed by one of some characters. -/
def IsShort (cs : List Char) : Prop :=
  ∃ d more, cs = 'a' :: d :: more ∧ (isBlank d = true ∨ d ∈ ['<', '[', '"', '_'])

lemma isShort_iff : IsShort cs ↔ (at' cs 0 == 'a' && (isBlank (at' cs 1) || at' cs 1 == '<' ||
    at' cs 1 == '[' || at' cs 1 == '"' || at' cs 1 == '_')) = true := by
  match cs with
  | [] => simp [IsShort, at']
  | [c] => simp [IsShort, at', isBlank]
  | c :: d :: more => simp [IsShort, at', or_assoc]

lemma Names.not_isShort (h : Names ps text iri) : ¬IsShort (text.toList ++ cs) := by
  rintro ⟨d, more, hshort, hd⟩
  obtain ⟨e, tail, htext, he⟩ := h.second <| by
    obtain ⟨c, rest, htext, -⟩ := h.begins
    rw [htext, List.cons_append, List.cons.injEq] at hshort
    rw [htext, hshort.1]
    rfl
  rw [htext, List.cons_append, List.cons_append, List.cons.injEq, List.cons.injEq] at hshort
  obtain rfl : e = d := hshort.2.1
  have hblank : isBlank e = false := by
    rcases he with rfl | he
    · decide
    · exact isBlank_of_isNameChar (isNameChar_of_isTagChar he)
  simp only [hblank, Bool.false_eq_true, false_or, List.mem_cons, List.not_mem_nil, or_false] at hd
  rcases hd with rfl | rfl | rfl | rfl
  all_goals exact absurd he (by decide)

namespace Step

variable {α β : Type} {x : Step α} {f : α → Step β} {p q p' : Progress} {a : α} {b : β}

def Gives (x : Step α) (p : Progress) (a : α) (q : Progress) : Prop := x.run.run p = (.ok a, q)

/-! ### Rules -/

lemma gives_pure : Gives (pure a) p a p := rfl

lemma Gives.bind (hx : Gives x p a q) (hf : Gives (f a) q b p') : Gives (x >>= f) p b p' := by
  unfold Gives at *
  rw [ExceptT.run_bind, StateT.run_bind, hx]
  exact hf

lemma Gives.run_bind (h : Gives x p a q) : (x >>= f).run.run p = (f a).run.run q := by
  rw [ExceptT.run_bind, StateT.run_bind, h]
  rfl

lemma gives_get : Gives get p p p := rfl

lemma gives_rest : Gives rest p p.rest p := rfl

lemma gives_modify {f : Progress → Progress} : Gives (modify f) p () (f p) := rfl

lemma gives_emit {subject predicate object : Term} : Gives (emit subject predicate object) p ()
    { p with graph := p.graph.add ⟨subject, predicate, object⟩ } := rfl

lemma gives_fuel : Gives fuel p (3 * p.rest.length + 3) p := rfl

lemma gives_setRest : Gives (setRest cs) p () { p with rest := cs } := rfl

lemma gives_drop : Gives (drop n) p () { p with rest := p.rest.drop n } := rfl

lemma gives_blanks : Gives blanks p () { p with rest := skip p.rest } := rfl

lemma gives_ahead : Gives (ahead n) p (at' p.rest n) p := rfl

lemma gives_atEnd : Gives atEnd p p.rest.isEmpty p := rfl

lemma gives_lex {l : Lexer α} (h : l p.rest = .ok (a, cs)) :
    Gives (lex l) p a { p with rest := cs } := by
  refine gives_rest.bind ?_
  rw [h]
  exact gives_setRest.bind gives_pure

/-- A gap in front of a piece is skipped. -/
lemma gives_gap (hws : Gap ws) (h : skip cs = cs) :
    Gives blanks ⟨r, ws ++ cs, g⟩ () ⟨r, cs, g⟩ := by
  have hskip : skip (ws ++ cs) = cs := (skip_append hws).trans h
  show (_, Progress.mk r (skip (ws ++ cs)) g) = _
  rw [hskip]

lemma gives_expect (hws : Gap ws) (hc : Opens c) :
    Gives (expect c) ⟨r, ws ++ c :: cs, g⟩ () ⟨r, cs, g⟩ := by
  refine (gives_gap hws (skip_cons hc)).bind (gives_rest.bind ?_)
  dsimp only
  rw [if_pos rfl]
  exact gives_setRest

/-! ### Faults -/

/-- The step ends with a fault. -/
def Faults (x : Step α) (p : Progress) (fault : Fault) : Prop := (x.run.run p).1 = .error fault

variable {fault : Fault}

lemma Faults.bind (h : Faults x p fault) : Faults (x >>= f) p fault := by
  unfold Faults at *
  rw [ExceptT.run_bind, StateT.run_bind]
  cases hx : x.run.run p with
  | mk y q =>
    rw [hx] at h
    obtain rfl : y = .error fault := h
    rfl

lemma Gives.faults (hx : Gives x p a q) (h : Faults (f a) q fault) : Faults (x >>= f) p fault := by
  unfold Faults
  rw [hx.run_bind]
  exact h

lemma faults_lex {l : Lexer α} (h : l p.rest = .error (fault, cs)) : Faults (lex l) p fault := by
  refine gives_rest.faults ?_
  rw [h]
  exact gives_setRest.faults rfl

/-- A word without a colon behind it is no name. -/
lemma faults_name {left : List Char} (hskip : skip cs = cs) (hne : cs ≠ [])
    (hhead : cs.head? ≠ some '<') (h : prefixName .unexpected .noColon cs = .error (fault, left)) :
    Faults name ⟨r, cs, g⟩ fault := by
  refine (gives_gap gap_nil hskip).faults (gives_rest.faults ?_)
  dsimp only
  split
  · exact absurd rfl hne
  · exact absurd rfl hhead
  · exact (faults_lex h).bind

/-! ### Terms -/

lemma gives_reference (hr : r.base = "") (h : Enclosable iri) :
    Gives reference ⟨r, '<' :: (iri.toList ++ '>' :: cs), g⟩ iri ⟨r, cs, g⟩ := by
  refine (gives_lex (iriReference_append h)).bind (gives_get.bind ?_)
  have hresolve : r.resolve iri = iri := by simp [Reader.resolve, hr]
  dsimp only
  rw [hresolve]
  exact gives_pure

lemma gives_name_bracketed (hr : r.base = "") (h : Enclosable iri) (hws : Gap ws) :
    Gives name ⟨r, ws ++ '<' :: (iri.toList ++ '>' :: cs), g⟩ (.iri iri) ⟨r, cs, g⟩ :=
  (gives_gap hws (skip_cons ⟨by decide, by decide⟩)).bind
    (gives_rest.bind ((gives_reference hr h).bind gives_pure))

/-- A name with a declared prefix, whatever its local part is. -/
lemma gives_name_local {before ns loc : String} {rest : List Char}
    (h : ∀ c ∈ before.toList, isNameChar c = true) (hns : r.prefixes.find? before = some ns)
    (hloc : localName cs = (loc, rest)) (hws : Gap ws) :
    Gives name ⟨r, ws ++ (before.toList ++ ':' :: cs), g⟩ (.iri (ns ++ loc)) ⟨r, rest, g⟩ := by
  obtain ⟨c, more, hhead, hc, hne⟩ : ∃ c more,
      before.toList ++ ':' :: cs = c :: more ∧ Opens c ∧ c ≠ '<' := by
    cases hb : before.toList with
    | nil => exact ⟨':', _, rfl, ⟨by decide, by decide⟩, by decide⟩
    | cons c w =>
      have hc := h c (by simp [hb])
      exact ⟨c, _, rfl, opens_of_isNameChar hc, by rintro rfl; exact absurd hc (by decide)⟩
  refine (gives_gap hws (hhead ▸ skip_cons hc)).bind (gives_rest.bind ?_)
  dsimp only
  -- a bracket would begin a reference
  split
  · rename_i hnil
    simp [hnil] at hhead
  · rename_i more hbracket
    exact absurd (List.cons.inj (hhead.symm.trans hbracket)).1 hne
  · refine (gives_lex (prefixName_append h)).bind (gives_drop.bind (gives_rest.bind ?_))
    dsimp only
    rw [List.drop_one, List.tail_cons, hloc]
    refine gives_setRest.bind (gives_get.bind ?_)
    dsimp only
    rw [String.ofList_toList, hns]
    exact gives_pure

lemma gives_name_prefixed {before ns : String} {loc : List Char} (h : PrefixText before)
    (hns : r.prefixes.find? before = some ns) (hloc : ∀ c ∈ loc, Prefixes.isPlain c = true)
    (hd : Closes d) (hws : Gap ws) :
    Gives name ⟨r, ws ++ (before.toList ++ ':' :: (loc ++ d :: cs)), g⟩
      (.iri (ns ++ String.ofList loc)) ⟨r, d :: cs, g⟩ :=
  gives_name_local (fun c hc => isNameChar_of_isTagChar (h.2 c hc)) hns
    (localName_append (fun c hc => isNameChar_of_isPlain (hloc c hc)) hd) hws

lemma gives_name (hr : r.base = "") (h : Names r.prefixes text iri) (hd : Closes d)
    (hws : Gap ws) :
    Gives name ⟨r, ws ++ (text.toList ++ d :: cs), g⟩ (.iri iri) ⟨r, d :: cs, g⟩ := by
  cases h with
  | bracketed h => simpa using gives_name_bracketed hr h hws
  | prefixed h hns hloc => simpa using gives_name_prefixed h hns hloc hd hws

lemma gives_labelled {label : String} (hr : r.blankPrefix = "") (h : Label label) (hd : Closes d) :
    Gives labelled ⟨r, '_' :: ':' :: (label.toList ++ d :: cs), g⟩ (.blank label)
      ⟨r, d :: cs, g⟩ := by
  refine gives_drop.bind ((gives_lex (blankLabel_append h hd)).bind (gives_get.bind ?_))
  simp only [hr, String.empty_append]
  exact gives_pure

lemma gives_quoted {lexical : String} (hd : d ≠ '"') :
    Gives (lex quoted) ⟨r, (quote lexical).toList ++ d :: cs, g⟩ lexical ⟨r, d :: cs, g⟩ :=
  gives_lex (quoted_append hd)

lemma gives_literal_tagged {lexical language : String} (h : Tag language) (hd : Closes d) :
    Gives literal ⟨r, (quote lexical).toList ++ '@' :: (language.toList ++ d :: cs), g⟩
      (.langString lexical language) ⟨r, d :: cs, g⟩ := by
  have hstop : isTagChar d = false := by rcases hd with rfl | rfl <;> decide
  have htake : (language.toList ++ d :: cs).takeWhile isTagChar = language.toList := by
    simp [List.takeWhile_append_of_pos h, hstop]
  have hdrop : (language.toList ++ d :: cs).dropWhile isTagChar = d :: cs := by
    simp [List.dropWhile_append_of_pos h, hstop]
  refine (gives_quoted (by decide)).bind (gives_rest.bind ?_)
  show Gives (setRest (List.dropWhile isTagChar _) >>= fun _ =>
    pure (Term.langString lexical (String.ofList (List.takeWhile isTagChar _)))) _ _ _
  rw [htake, hdrop, String.ofList_toList]
  exact gives_setRest.bind gives_pure

lemma gives_literal_typed {lexical : String} (hr : r.base = "") (h : Names r.prefixes text iri)
    (hd : Closes d) :
    Gives literal ⟨r, (quote lexical).toList ++ '^' :: '^' :: (text.toList ++ d :: cs), g⟩
      (.typed lexical iri) ⟨r, d :: cs, g⟩ := by
  refine (gives_quoted (by decide)).bind (gives_rest.bind (gives_setRest.bind ?_))
  exact (gives_name hr h hd gap_nil).bind gives_pure

lemma gives_literal_string {lexical : String} (hd : Closes d) :
    Gives literal ⟨r, (quote lexical).toList ++ d :: cs, g⟩ (.string lexical)
      ⟨r, d :: cs, g⟩ := by
  rcases hd with rfl | rfl
  all_goals exact (gives_quoted (by decide)).bind (gives_rest.bind gives_pure)

/-! ### Positions -/

/-- Where an object is read, nothing takes a name for something else. -/
lemma gives_object_name (hc : begins c = true) (ht : truth? (c :: cs) = none) (hws : Gap ws)
    (hx : Gives name ⟨r, c :: cs, g⟩ t q) :
    Gives (object (n + 1)) ⟨r, ws ++ c :: cs, g⟩ t q := by
  rw [object]
  refine (gives_gap hws (skip_cons (opens_of_begins hc))).bind
    (gives_ahead.bind (gives_ahead.bind ?_))
  have h₀ : at' (c :: cs) 0 = c := rfl
  simp only [h₀, beq_of_begins hc (by decide : begins '[' = false),
    beq_of_begins hc (by decide : begins '(' = false),
    beq_of_begins hc (by decide : begins '_' = false),
    beq_of_begins hc (by decide : begins '"' = false),
    beq_of_begins hc (by decide : begins '\'' = false),
    beq_of_begins hc (by decide : begins '+' = false),
    beq_of_begins hc (by decide : begins '-' = false),
    beq_of_begins hc (by decide : begins '.' = false),
    isDigit_of_begins hc, isSign, Bool.false_and, Bool.or_false, Bool.false_eq_true, if_false]
  refine gives_rest.bind ?_
  rw [ht]
  exact hx

lemma gives_object_iri (hr : r.base = "") (h : Names r.prefixes text iri) (hd : Closes d)
    (hws : Gap ws) :
    Gives (object (n + 1)) ⟨r, ws ++ (text.toList ++ d :: cs), g⟩ (.iri iri) ⟨r, d :: cs, g⟩ := by
  obtain ⟨c, more, htext, hc⟩ := h.begins
  have hname : Gives name ⟨r, text.toList ++ d :: cs, g⟩ _ ⟨r, d :: cs, g⟩ :=
    gives_name hr h hd gap_nil
  have ht : truth? (text.toList ++ d :: cs) = none := h.truth?_eq_none
  rw [htext] at hname ht ⊢
  exact gives_object_name hc ht hws hname

lemma gives_object_literal {lexical : String} (hws : Gap ws)
    (hx : Gives literal ⟨r, (quote lexical).toList ++ cs, g⟩ t q) :
    Gives (object (n + 1)) ⟨r, ws ++ ((quote lexical).toList ++ cs), g⟩ t q := by
  have htext : (quote lexical).toList = '"' :: (lexical.toList.flatMap escapeChar ++ ['"']) := by
    simp [quote, escape]
  rw [htext] at hx ⊢
  rw [object]
  exact (gives_gap hws (skip_cons ⟨by decide, by decide⟩)).bind
    (gives_ahead.bind (gives_ahead.bind hx))

lemma gives_object_labelled (hws : Gap ws) (hx : Gives labelled ⟨r, '_' :: ':' :: cs, g⟩ t q) :
    Gives (object (n + 1)) ⟨r, ws ++ '_' :: ':' :: cs, g⟩ t q := by
  rw [object]
  exact (gives_gap hws (skip_cons ⟨by decide, by decide⟩)).bind
    (gives_ahead.bind (gives_ahead.bind hx))

/-- **An object** is read from each of its spellings. -/
lemma gives_object (hr : r.base = "") (hb : t.isBlank = true → r.blankPrefix = "")
    (h : Spells r.prefixes text t) (hd : Closes d) (hws : Gap ws) :
    Gives (object (n + 1)) ⟨r, ws ++ (text.toList ++ d :: cs), g⟩ t ⟨r, d :: cs, g⟩ := by
  cases h with
  | iri h => exact gives_object_iri hr h hd hws
  | blank h => simpa using gives_object_labelled hws (gives_labelled (hb rfl) h hd)
  | tagged h => simpa using gives_object_literal hws (gives_literal_tagged h hd)
  | typed h => simpa using gives_object_literal hws (gives_literal_typed hr h hd)
  | string => exact gives_object_literal hws (gives_literal_string hd)

lemma gives_verb_short (hws : Gap ws) (h : IsShort cs) :
    Gives verb ⟨r, ws ++ cs, g⟩ (.iri Vocabulary.rdfType) ⟨r, cs.drop 1, g⟩ := by
  have hskip : skip cs = cs := by
    obtain ⟨d, more, rfl, -⟩ := h
    exact skip_cons ⟨by decide, by decide⟩
  refine (gives_gap hws hskip).bind (gives_ahead.bind (gives_ahead.bind ?_))
  rw [if_pos (isShort_iff.1 h)]
  exact gives_drop.bind gives_pure

lemma gives_verb_name (hws : Gap ws) (hskip : skip cs = cs) (h : ¬IsShort cs)
    (hx : Gives name ⟨r, cs, g⟩ t q) : Gives verb ⟨r, ws ++ cs, g⟩ t q := by
  refine (gives_gap hws hskip).bind (gives_ahead.bind (gives_ahead.bind ?_))
  rw [if_neg fun hshort => h (isShort_iff.2 hshort)]
  exact hx

lemma faults_verb {fault : Fault} (hskip : skip cs = cs) (h : ¬IsShort cs)
    (hx : Faults name ⟨r, cs, g⟩ fault) : Faults verb ⟨r, cs, g⟩ fault := by
  refine (gives_gap gap_nil hskip).faults (gives_ahead.faults (gives_ahead.faults ?_))
  rw [if_neg fun hshort => h (isShort_iff.2 hshort)]
  exact hx

/-- **A predicate** is read from each of its spellings. -/
lemma gives_verb (hr : r.base = "") (h : Verbs r.prefixes text t) (hws : Gap ws) :
    Gives verb ⟨r, ws ++ (text.toList ++ ' ' :: cs), g⟩ t ⟨r, ' ' :: cs, g⟩ := by
  cases h with
  | type => exact gives_verb_short hws ⟨' ', cs, rfl, .inl (by decide)⟩
  | iri h =>
    have hskip : skip (text.toList ++ ' ' :: cs) = text.toList ++ ' ' :: cs := by
      obtain ⟨c, more, htext, hc⟩ := h.begins
      rw [htext]
      exact skip_cons (opens_of_begins hc)
    exact gives_verb_name hws hskip h.not_isShort (gives_name hr h (.inl rfl) gap_nil)

/-! ### Statements -/

/-- A statement that begins like a name, a label or a bracket is no directive. -/
lemma run_statement {w : List Char} (hw : ∀ c ∈ w, isNameChar c = true)
    (hd : d ∈ [':', '<', '_', '[', '(']) :
    statement.run.run ⟨r, w ++ d :: cs, g⟩ =
      (do triples; expect '.').run.run ⟨r, w ++ d :: cs, g⟩ := by
  have hblank : ∀ c ∈ w, isBlank c = false := fun c hc => isBlank_of_isNameChar (hw c hc)
  obtain ⟨hdblank, hat, hprefix, hbase⟩ : isBlank d = false ∧ d ≠ '@' ∧
      d.toLower ∉ "PREFIX".toList.map Char.toLower ∧
      d.toLower ∉ "BASE".toList.map Char.toLower := by
    simp only [List.mem_cons, List.not_mem_nil, or_false] at hd
    rcases hd with rfl | rfl | rfl | rfl | rfl <;> decide
  have hfirst : ¬(at' (w ++ d :: cs) 0 == '@') = true := by
    cases w with
    | nil => simpa [at'] using hat
    | cons c w =>
      have hc := hw c (by simp)
      simp only [List.cons_append, at', List.getD_cons_zero, beq_iff_eq]
      rintro rfl
      exact absurd hc (by decide)
  rw [statement, gives_rest.run_bind]
  dsimp only
  rw [if_neg hfirst, afterKeyword?_eq_none hblank hdblank hprefix,
    afterKeyword?_eq_none hblank hdblank hbase]

end Step

variable {q : Progress}

/-! ### Documents -/

lemma read_of_gives (h : Step.Gives Step.document ⟨r, text.toList, .empty⟩ () q) :
    r.read text = (.ok q.graph, q.reader) := by
  unfold Reader.read Reader.run
  dsimp only
  rw [h]

lemma exists_gives_of_read (h : (r.read text).1 = .ok g) :
    ∃ q, Step.Gives Step.document ⟨r, text.toList, .empty⟩ () q := by
  unfold Reader.read Reader.run at h
  dsimp only at h
  split at h
  · rename_i q hq
    exact ⟨q, hq⟩
  · cases h

end Semlift.Rdf.Turtle
