import Mathlib.Data.List.Basic
import Semlift.Ontology.ClassParser
import Semlift.Proofs.Lists

/-!
The tokens of a class expression's text. Names stand in angle brackets there, operands in
parentheses, and each connective between blanks, so that a text falls into the same tokens whatever
follows it.
-/

namespace Semlift.Ontology

open Semlift.Rdf Semlift.Text

/-- A token in angle brackets. -/
def Token.iri (name : String) : Token := ⟨.name, "<" ++ name ++ ">"⟩

def Token.word (word : String) : Token := ⟨.name, word⟩

def Token.mark (c : Char) : Token := ⟨.punct, c.toString⟩

namespace ClassExpr

/-- All names in an expression are IRIs with a property, and so are its individuals. -/
def AllIris (P : String → Prop) : ClassExpr → Prop
  | .named iri => P iri
  | .inter first more => first.AllIris P ∧ ∀ e ∈ more, e.AllIris P
  | .union first more => first.AllIris P ∧ ∀ e ∈ more, e.AllIris P
  | .complement e => e.AllIris P
  | .some property filler => P property ∧ filler.AllIris P
  | .value property individual => P property ∧ ∃ iri, individual = .iri iri ∧ P iri
  | .oneOf individuals => ∀ x ∈ individuals, ∃ iri, x = .iri iri ∧ P iri
termination_by e => e

lemma AllIris.mono {P Q : String → Prop} {e : ClassExpr} (h : e.AllIris P)
    (hPQ : ∀ iri, P iri → Q iri) : e.AllIris Q := by
  induction e using ClassExpr.induction with
  | named iri =>
    rw [AllIris] at h ⊢
    exact hPQ iri h
  | inter first more hfirst hmore | union first more hfirst hmore =>
    rw [AllIris] at h ⊢
    exact ⟨hfirst h.1, fun e he => hmore e he (h.2 e he)⟩
  | complement e he =>
    rw [AllIris] at h ⊢
    exact he h
  | some property filler hfiller =>
    rw [AllIris] at h ⊢
    exact ⟨hPQ property h.1, hfiller h.2⟩
  | value property individual =>
    rw [AllIris] at h ⊢
    exact ⟨hPQ property h.1, h.2.imp fun iri hiri => ⟨hiri.1, hPQ iri hiri.2⟩⟩
  | oneOf individuals =>
    rw [AllIris] at h ⊢
    exact fun x hx => (h x hx).imp fun iri hiri => ⟨hiri.1, hPQ iri hiri.2⟩

/-- The tokens of further individuals, each after a comma. -/
def moreIndividuals (xs : List Term) : List Token :=
  xs.flatMap fun x => [.mark ',', .iri x.content]

def individualTokens : List Term → List Token
  | [] => []
  | x :: more => .iri x.content :: moreIndividuals more

mutual

/-- The tokens of an expression's text. -/
def tokens : ClassExpr → List Token
  | .named iri => [.iri iri]
  | .inter first more => .mark '(' :: first.tokens ++ .mark ')' :: tokensMore "and" more
  | .union first more => .mark '(' :: first.tokens ++ .mark ')' :: tokensMore "or" more
  | .complement e => .word "not" :: .mark '(' :: e.tokens ++ [.mark ')']
  | .some property filler =>
    .iri property :: .word "some" :: .mark '(' :: filler.tokens ++ [.mark ')']
  | .value property individual => [.iri property, .word "value", .iri individual.content]
  | .oneOf individuals => .mark '\x7b' :: individualTokens individuals ++ [.mark '\x7d']

/-- The other operands, each after its connective. -/
def tokensMore (word : String) : List ClassExpr → List Token
  | [] => []
  | e :: more => .word word :: .mark '(' :: e.tokens ++ .mark ')' :: tokensMore word more

end

end ClassExpr

variable {c : Char} {cs ds : List Char} {ts us : List Token} {t : Token} {word name : String}
  {e : ClassExpr} {more : List ClassExpr} {x : Term} {xs : List Term}

/-- A text that falls into certain tokens, whatever follows it. -/
def Spells (cs : List Char) (ts : List Token) : Prop :=
  ∀ rest, tokensFrom 0 (cs ++ rest) = (tokensFrom 0 rest).map (ts ++ ·)

lemma map_append_map (r : Except Fault (List Token)) :
    (r.map (us ++ ·)).map (ts ++ ·) = r.map ((ts ++ us) ++ ·) := by
  cases r <;> simp [Except.map]

lemma spells_nil : Spells [] [] := fun rest => by
  cases h : tokensFrom 0 rest <;> simp [h, Except.map]

lemma Spells.append (h : Spells cs ts) (hmore : Spells ds us) : Spells (cs ++ ds) (ts ++ us) := by
  intro rest
  rw [List.append_assoc, h, hmore, map_append_map]

lemma Spells.cast (h : Spells cs ts) (hcs : cs = ds) (hts : ts = us) : Spells ds us :=
  hcs ▸ hts ▸ h

lemma spells_blank (hc : isBlank c = true) : Spells [c] [] := fun rest => by
  rw [List.singleton_append, tokensFrom, if_pos hc]
  exact spells_nil rest

lemma tokensFrom_length : tokensFrom cs.length (cs ++ ds) = tokensFrom 0 ds := by
  induction cs with
  | nil => rfl
  | cons c cs ih => exact ih

/-- A token at the beginning of a text, told from what follows it in the text. -/
lemma tokensFrom_token (hc : isBlank c = false)
    (h : tokenAt c (cs ++ ds) = .ok (t, cs.length + 1)) :
    tokensFrom 0 (c :: (cs ++ ds)) = (tokensFrom 0 ds).map (t :: ·) := by
  rw [tokensFrom, if_neg (by simp [hc]), h]
  simp [tokensFrom_length]

lemma spells_token (hc : isBlank c = false)
    (h : ∀ ds, tokenAt c (cs ++ ds) = .ok (t, cs.length + 1)) : Spells (c :: cs) [t] :=
  fun rest => tokensFrom_token hc (h rest)

lemma spells_mark (c : Char) (hc : c ∈ punctuation) : Spells [c] [.mark c] := by
  have hblanks : punctuation.all (!isBlank ·) = true := by decide
  have hblank : isBlank c = false := by simpa using List.all_eq_true.1 hblanks c hc
  exact spells_token hblank fun ds => by simp [tokenAt, hc, Token.mark]

lemma spells_iri (hname : '>' ∉ name.toList) :
    Spells ("<" ++ name ++ ">").toList [.iri name] := by
  have htext : ("<" ++ name ++ ">").toList = '<' :: (name.toList ++ ['>']) := by simp
  rw [htext]
  refine spells_token (by decide) fun ds => ?_
  have hclose : ((name.toList ++ ['>']) ++ ds).takeWhile (· != '>') = name.toList := by
    rw [List.append_assoc]
    exact takeWhile_append_cons (fun c hc => bne_iff_ne.2 (ne_of_mem_of_not_mem hc hname)) (by simp)
  have hpunct : '<' ∉ punctuation := by decide
  have htake : ('<' :: ((name.toList ++ ['>']) ++ ds)).take (name.toList.length + 2) =
      '<' :: (name.toList ++ ['>']) := by
    rw [List.take_succ_cons, List.take_left' (by simp)]
  rw [tokenAt, if_neg hpunct, if_pos rfl, hclose, if_neg (by simp), htake, ← htext,
    String.ofList_toList, Token.iri, List.length_append, List.length_singleton]

/-- A word that a blank ends. -/
lemma spells_word (hne : word.toList ≠ []) (hword : ∀ c ∈ word.toList, endsWord c = false)
    (hnumber : isNumeric word.toList = false) :
    Spells (word.toList ++ [' ']) [.word word] := fun rest => by
  obtain ⟨c, cs, hcs⟩ := List.exists_cons_of_ne_nil hne
  have hends : endsWord c = false := hword c (by simp [hcs])
  simp only [endsWord, Bool.or_eq_false_iff, decide_eq_false_iff_not, beq_eq_false_iff_ne] at hends
  obtain ⟨⟨⟨hblank, hpunct⟩, hopen⟩, hquote⟩ := hends
  have htoken : tokenAt c (cs ++ ' ' :: rest) = .ok (.word word, cs.length + 1) := by
    have htake : (c :: (cs ++ ' ' :: rest)).takeWhile (fun c => !endsWord c) = word.toList := by
      rw [hcs, ← List.cons_append]
      exact takeWhile_append_cons (fun d hd => by simp [hword d (hcs ▸ hd)]) (by decide)
    have hlength : word.toList.length = cs.length + 1 := by rw [hcs, List.length_cons]
    rw [tokenAt, if_neg hpunct, if_neg hopen, if_neg hquote, htake]
    simp only [hnumber, Bool.false_eq_true, if_false, String.ofList_toList, Token.word, hlength]
  have hfirst : tokensFrom 0 (c :: (cs ++ ' ' :: rest)) =
      (tokensFrom 0 (' ' :: rest)).map (.word word :: ·) := tokensFrom_token hblank htoken
  have hgap : tokensFrom 0 (' ' :: rest) = tokensFrom 0 rest := rfl
  rw [hcs, List.append_assoc, List.cons_append, List.singleton_append, hfirst, hgap]
  rfl

/-! ### Texts of expressions -/

lemma spells_operand (h : Spells cs ts) :
    Spells ('(' :: (cs ++ [')'])) (.mark '(' :: (ts ++ [.mark ')'])) :=
  (spells_mark '(' (by decide)).append (h.append (spells_mark ')' (by decide)))

/-- The words that stand between the parts of an expression. -/
lemma spells_keyword (word : String) (hword : word ∈ ["and", "or", "not", "some", "value"]) :
    Spells (word.toList ++ [' ']) [.word word] := by
  have hplain : ∀ w ∈ ["and", "or", "not", "some", "value"], w.toList ≠ [] ∧
      w.toList.all (!endsWord ·) = true ∧ isNumeric w.toList = false := by decide
  obtain ⟨hne, hends, hnumber⟩ := hplain word hword
  exact spells_word hne (fun c hc => by simpa using List.all_eq_true.1 hends c hc) hnumber

lemma spells_individual (hx : ∃ iri, x = .iri iri ∧ '>' ∉ iri.toList) :
    Spells x.ntriples.toList [.iri x.content] := by
  obtain ⟨iri, rfl, hiri⟩ := hx
  exact spells_iri hiri

lemma spells_individuals (hxs : ∀ x ∈ xs, ∃ iri, x = .iri iri ∧ '>' ∉ iri.toList) :
    Spells (join ", " (xs.map Term.ntriples)).toList (ClassExpr.individualTokens xs) := by
  induction xs with
  | nil => exact spells_nil
  | cons x more ih =>
    obtain ⟨hx, hmore⟩ := List.forall_mem_cons.1 hxs
    cases more with
    | nil => exact spells_individual hx
    | cons y more =>
      have hcomma : Spells ", ".toList [.mark ','] :=
        (spells_mark ',' (by decide)).append (spells_blank (by decide))
      exact ((spells_individual hx).append (hcomma.append (ih hmore))).cast (by simp) rfl

lemma spells_more (word : String) (hword : word ∈ ["and", "or"])
    (h : ∀ e ∈ more, Spells e.text.toList e.tokens) :
    Spells (ClassExpr.textMore (" " ++ word ++ " ") more).toList
      (ClassExpr.tokensMore word more) := by
  induction more with
  | nil => exact spells_nil
  | cons e more ih =>
    obtain ⟨he, hmore⟩ := List.forall_mem_cons.1 h
    have hkeyword : Spells (word.toList ++ [' ']) [.word word] :=
      spells_keyword word (List.mem_append_left ["not", "some", "value"] hword)
    have hgap : Spells [' '] [] := spells_blank (by decide)
    refine (hgap.append (hkeyword.append ((spells_operand he).append (ih hmore)))).cast ?_ ?_
    · simp [ClassExpr.textMore]
    · simp [ClassExpr.tokensMore]

/-- The text of an expression falls into its tokens. -/
lemma spells_text (h : e.AllIris ('>' ∉ ·.toList)) : Spells e.text.toList e.tokens := by
  have hgap : Spells [' '] [] := spells_blank (by decide)
  induction e using ClassExpr.induction with
  | named iri =>
    rw [ClassExpr.AllIris] at h
    exact spells_iri h
  | inter first more hfirst hmore =>
    rw [ClassExpr.AllIris] at h
    refine ((spells_operand (hfirst h.1)).append
      (spells_more "and" (by simp) fun e he => hmore e he (h.2 e he))).cast ?_ ?_
    · simp [ClassExpr.text]
    · simp [ClassExpr.tokens]
  | union first more hfirst hmore =>
    rw [ClassExpr.AllIris] at h
    refine ((spells_operand (hfirst h.1)).append
      (spells_more "or" (by simp) fun e he => hmore e he (h.2 e he))).cast ?_ ?_
    · simp [ClassExpr.text]
    · simp [ClassExpr.tokens]
  | complement e he =>
    rw [ClassExpr.AllIris] at h
    refine ((spells_keyword "not" (by simp)).append (spells_operand (he h))).cast ?_ ?_
    · simp [ClassExpr.text]
    · simp [ClassExpr.tokens]
  | some property filler hfiller =>
    rw [ClassExpr.AllIris] at h
    refine ((spells_iri h.1).append (hgap.append ((spells_keyword "some" (by simp)).append
      (spells_operand (hfiller h.2))))).cast ?_ ?_
    · simp [ClassExpr.text]
    · simp [ClassExpr.tokens]
  | value property individual =>
    rw [ClassExpr.AllIris] at h
    refine ((spells_iri h.1).append (hgap.append ((spells_keyword "value" (by simp)).append
      (spells_individual h.2)))).cast ?_ ?_
    · simp [ClassExpr.text]
    · simp [ClassExpr.tokens]
  | oneOf individuals =>
    rw [ClassExpr.AllIris] at h
    refine ((spells_mark '\x7b' (by decide)).append
      ((spells_individuals h).append (spells_mark '\x7d' (by decide)))).cast ?_ ?_
    · simp [ClassExpr.text]
    · simp [ClassExpr.tokens]

end Semlift.Ontology
