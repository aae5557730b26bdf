import Mathlib
import Semlift.Proofs.Ontology.Readers
import Semlift.Proofs.Ontology.Spelling
import Semlift.Proofs.Rdf.Prefixes

/-!
Class expressions read back from their texts. With each operand in parentheses and each name in
angle brackets a text leaves no choice to the reader, so the expression that it spells is read
again. The fuel of a reader is measured by the tokens in front: no four nested calls use less than
one.
-/

namespace Semlift.Ontology

open Semlift.Rdf

variable {s : Scope} {ts us rest : List Token} {t u : Token} {n : Nat} {e : ClassExpr}
  {more : List ClassExpr} {x : Term} {xs : List Term} {word name k p source : String} {c : Char}
  {r : Bool}

/-- A keyword is told in any case of letters. -/
def Token.isKeyword (t : Token) (k : String) : Bool :=
  t.kind == .name && String.ofList (t.text.toList.map Char.toLower) == k

def Token.isMark (t : Token) (p : String) : Bool := t.kind == .punct && t.text == p

@[simp] lemma kind_iri : (Token.iri name).kind = .name := rfl
@[simp] lemma kind_word : (Token.word name).kind = .name := rfl
@[simp] lemma kind_mark : (Token.mark c).kind = .punct := rfl

lemma isKeyword_of_kind (ht : t.kind ≠ .name) : t.isKeyword k = false := by
  simp [Token.isKeyword, ht]

lemma toList_iri : (Token.iri name).text.toList = '<' :: (name.toList ++ ['>']) := by
  simp [Token.iri]

lemma isKeyword_iri (hk : k.toList.head? ≠ some '<') : (Token.iri name).isKeyword k = false := by
  refine Bool.and_eq_false_imp.2 fun _ => beq_eq_false_iff_ne.2 fun heq => hk ?_
  rw [← heq, toList_iri, String.toList_ofList]
  rfl

lemma length_tokensMore (word : String) (e : ClassExpr) (more : List ClassExpr) :
    (ClassExpr.tokensMore word (e :: more)).length =
      e.tokens.length + (ClassExpr.tokensMore word more).length + 3 := by
  simp [ClassExpr.tokensMore]
  omega

lemma tokensMore_append : ClassExpr.tokensMore word (e :: more) ++ ts = .word word ::
    .mark '(' :: (e.tokens ++ .mark ')' :: (ClassExpr.tokensMore word more ++ ts)) := by
  simp [ClassExpr.tokensMore]

namespace Step

/-! ### Single tokens -/

lemma reads_get : (get : Step (List Token)).Reads ts ts ts := rfl

lemma reads_current : current.Reads (t :: ts) t (t :: ts) := rfl

lemma reads_atKeyword (h : t.isKeyword k = r) : (atKeyword k).Reads (t :: ts) r (t :: ts) :=
  h ▸ rfl

lemma reads_atPunct (h : t.isMark p = r) : (atPunct p).Reads (t :: ts) r (t :: ts) :=
  h ▸ rfl

lemma reads_advance (ht : t.kind ≠ .done) : advance.Reads (t :: ts) () ts := by
  have hadvance : advance.run (t :: ts) = .ok ((), if t.kind = .done then t :: ts else ts) := rfl
  rw [Reads, hadvance, if_neg ht]

lemma reads_close (h : t.isMark p = true) : (close p).Reads (t :: ts) () ts := by
  have hkind : t.kind ≠ .done := by
    rintro hdone
    simp [Token.isMark, hdone] at h
  exact (reads_atPunct h).test_true (reads_advance hkind)

lemma resolve_bracketed (h : s.prefixes.Keeps name) :
    s.resolve (Token.iri name).text = .ok name := by
  have hexpand : s.prefixes.expand (Token.iri name).text = .ok name := h.expand_bracketed
  simp [Scope.resolve, toList_iri, hexpand]

lemma reads_resolve (h : s.resolve word = .ok name) : (resolve s word).Reads ts name ts := by
  rw [Reads, resolve, h]
  rfl

lemma reads_individual (h : s.prefixes.Keeps name) :
    (individual s).Reads (.iri name :: ts) (.iri name) ts := by
  have hword : ∀ w ∈ ["true", "false"], (Token.iri name).text ≠ w := by
    rintro w hw rfl
    simp only [List.mem_cons, ← String.toList_inj, toList_iri] at hw
    simp at hw
  rw [individual]
  refine reads_current.bind ((reads_advance (by simp)).bind ?_)
  rw [if_neg (by simp [hword])]
  exact (reads_resolve (resolve_bracketed h)).bind reads_pure

/-- Individuals after the first. -/
lemma reads_individuals (hxs : ∀ x ∈ xs, ∃ iri, x = .iri iri ∧ s.prefixes.Keeps iri)
    (hn : xs.length ≤ n) (ht : t.isMark "," = false) :
    (individuals s n).Reads (ClassExpr.moreIndividuals xs ++ t :: rest) xs (t :: rest) := by
  induction xs generalizing n with
  | nil =>
    cases n with
    | zero => exact reads_pure
    | succ n => exact (reads_atPunct ht).test_false reads_pure
  | cons x xs ih =>
    obtain ⟨⟨iri, rfl, hiri⟩, hmore⟩ := List.forall_mem_cons.1 hxs
    obtain ⟨m, rfl⟩ : ∃ m, n = m + 1 := ⟨n - 1, by simp at hn; omega⟩
    rw [individuals]
    refine (reads_atPunct (by decide)).test_true ((reads_advance (by simp)).bind ?_)
    refine (reads_individual hiri).bind ?_
    exact (ih hmore (by simpa using hn)).bind reads_pure

/-! ### Operands -/

/-- An expression is read from its tokens, wherever no name follows. -/
def Readable (s : Scope) (e : ClassExpr) : Prop :=
  ∀ n t rest, 4 * e.tokens.length ≤ n → t.kind ≠ .name →
    (disjunction s n).Reads (e.tokens ++ t :: rest) e (t :: rest)

/-- An expression in parentheses. -/
lemma reads_operand (h : Readable s e) (hn : 4 * e.tokens.length < n) :
    (primary s n).Reads (.mark '(' :: (e.tokens ++ .mark ')' :: rest)) e rest := by
  obtain ⟨m, rfl⟩ : ∃ m, n = m + 1 := ⟨n - 1, by omega⟩
  rw [primary]
  refine (reads_atKeyword (isKeyword_of_kind (by decide))).test_false ?_
  refine (reads_atPunct (by decide)).test_true ?_
  refine (reads_advance (by decide)).bind ?_
  refine (h m _ rest (by omega) (by decide)).bind ?_
  exact (reads_close (by decide)).bind reads_pure

lemma reads_moreConjuncts_nil (hn : 0 < n) (hand : t.isKeyword "and" = false)
    (hthat : t.isKeyword "that" = false) :
    (moreConjuncts s n).Reads (t :: rest) [] (t :: rest) := by
  obtain ⟨m, rfl⟩ : ∃ m, n = m + 1 := ⟨n - 1, by omega⟩
  rw [moreConjuncts]
  exact (reads_atKeyword hand).bind ((reads_atKeyword hthat).bind reads_pure)

lemma reads_moreConjuncts (h : ∀ e ∈ more, Readable s e)
    (hn : 4 * (ClassExpr.tokensMore "and" more).length < n) (ht : t.kind ≠ .name) :
    (moreConjuncts s n).Reads (ClassExpr.tokensMore "and" more ++ t :: rest) more (t :: rest) := by
  induction more generalizing n with
  | nil => exact reads_moreConjuncts_nil hn (isKeyword_of_kind ht) (isKeyword_of_kind ht)
  | cons e more ih =>
    obtain ⟨he, hmore⟩ := List.forall_mem_cons.1 h
    obtain ⟨m, rfl⟩ : ∃ m, n = m + 1 := ⟨n - 1, by omega⟩
    have hlength := length_tokensMore "and" e more
    have hand : (Token.word "and").isKeyword "and" = true := by decide
    rw [tokensMore_append, moreConjuncts]
    refine (reads_atKeyword hand).bind ((reads_atKeyword rfl).bind ?_)
    rw [Bool.true_or, if_pos rfl]
    refine (reads_advance (by simp)).bind ((reads_operand he (by omega)).bind ?_)
    exact (ih hmore (by omega)).bind reads_pure

lemma reads_conjunction (hprimary : (primary s n).Reads ts e (t :: rest)) (hn : 0 < n)
    (hand : t.isKeyword "and" = false) (hthat : t.isKeyword "that" = false) :
    (conjunction s (n + 1)).Reads ts e (t :: rest) := by
  rw [conjunction]
  exact hprimary.bind ((reads_moreConjuncts_nil hn hand hthat).bind reads_pure)

lemma reads_moreDisjuncts_nil (hn : 0 < n) (hor : t.isKeyword "or" = false) :
    (moreDisjuncts s n).Reads (t :: rest) [] (t :: rest) := by
  obtain ⟨m, rfl⟩ : ∃ m, n = m + 1 := ⟨n - 1, by omega⟩
  rw [moreDisjuncts]
  exact (reads_atKeyword hor).test_false reads_pure

/-- An expression that is read as an operand is read on its own. -/
lemma reads_disjunction (hprimary : (primary s n).Reads ts e (t :: rest)) (hn : 0 < n)
    (ht : t.kind ≠ .name) : (disjunction s (n + 2)).Reads ts e (t :: rest) := by
  have hconjunction :=
    reads_conjunction hprimary hn (isKeyword_of_kind ht) (isKeyword_of_kind ht)
  rw [disjunction]
  exact hconjunction.bind
    ((reads_moreDisjuncts_nil (by omega) (isKeyword_of_kind ht)).bind reads_pure)

/-- The next operand of a disjunction, or what follows the last. -/
lemma exists_next (more : List ClassExpr) (ht : t.kind ≠ .name) : ∃ u us,
    ClassExpr.tokensMore "or" more ++ t :: rest = u :: us ∧ u.isKeyword "and" = false ∧
      u.isKeyword "that" = false := by
  cases more with
  | nil => exact ⟨t, rest, rfl, isKeyword_of_kind ht, isKeyword_of_kind ht⟩
  | cons e more =>
    exact ⟨.word "or", _, tokensMore_append, by decide, by decide⟩

/-- The first operand of a disjunction and those that follow an `or`. -/
lemma reads_first (h : Readable s e) (hn : 4 * e.tokens.length + 1 < n) (ht : t.kind ≠ .name) :
    (conjunction s n).Reads (.mark '(' :: (e.tokens ++ .mark ')' ::
      (ClassExpr.tokensMore "or" more ++ t :: rest))) e
      (ClassExpr.tokensMore "or" more ++ t :: rest) := by
  obtain ⟨m, rfl⟩ : ∃ m, n = m + 1 := ⟨n - 1, by omega⟩
  obtain ⟨u, us, hnext, hand, hthat⟩ := exists_next more ht
  rw [hnext]
  exact reads_conjunction (reads_operand h (by omega)) (by omega) hand hthat

lemma reads_moreDisjuncts (h : ∀ e ∈ more, Readable s e)
    (hn : 4 * (ClassExpr.tokensMore "or" more).length < n) (ht : t.kind ≠ .name) :
    (moreDisjuncts s n).Reads (ClassExpr.tokensMore "or" more ++ t :: rest) more (t :: rest) := by
  induction more generalizing n with
  | nil => exact reads_moreDisjuncts_nil hn (isKeyword_of_kind ht)
  | cons e more ih =>
    obtain ⟨he, hmore⟩ := List.forall_mem_cons.1 h
    obtain ⟨m, rfl⟩ : ∃ m, n = m + 1 := ⟨n - 1, by omega⟩
    have hlength := length_tokensMore "or" e more
    rw [tokensMore_append, moreDisjuncts]
    refine (reads_atKeyword (by decide)).test_true ((reads_advance (by simp)).bind ?_)
    refine (reads_first he (by omega) ht).bind ?_
    exact (ih hmore (by omega)).bind reads_pure

/-- An expression that begins with a name is told from others by what follows the name. -/
lemma reads_name (hnot : (Token.word word).isKeyword "not" = false)
    (hname : s.resolve word = .ok name) (h : (afterName s n name).Reads ts e rest) :
    (primary s (n + 1)).Reads (.word word :: ts) e rest := by
  rw [primary]
  refine (reads_atKeyword hnot).test_false ?_
  refine (reads_atPunct rfl).test_false ((reads_atPunct rfl).test_false ?_)
  refine reads_current.bind ?_
  exact (reads_advance (by simp)).bind ((reads_resolve hname).bind h)

lemma reads_iri (hname : s.prefixes.Keeps name) (h : (afterName s n name).Reads ts e rest) :
    (primary s (n + 1)).Reads (.iri name :: ts) e rest :=
  reads_name (isKeyword_iri (by decide)) (resolve_bracketed hname) h

/-! ### Expressions -/

lemma readable_named (hiri : s.prefixes.Keeps name) : Readable s (.named name) := by
  intro n t rest hn ht
  rw [ClassExpr.tokens] at hn ⊢
  obtain ⟨m, rfl⟩ : ∃ m, n = m + 1 + 2 := ⟨n - 3, by simp at hn; omega⟩
  refine reads_disjunction (reads_iri hiri ?_) (by omega) ht
  refine (reads_atKeyword (isKeyword_of_kind ht)).test_false ?_
  exact (reads_atKeyword (isKeyword_of_kind ht)).test_false reads_pure

lemma readable_inter (hne : more ≠ []) (he : Readable s e) (hmore : ∀ d ∈ more, Readable s d) :
    Readable s (.inter e more) := by
  intro n t rest hn ht
  rw [ClassExpr.tokens] at hn ⊢
  simp only [List.cons_append, List.append_assoc, List.length_cons, List.length_append] at hn ⊢
  obtain ⟨m, rfl⟩ : ∃ m, n = m + 1 + 1 := ⟨n - 2, by omega⟩
  have hconjunction : (conjunction s (m + 1)).Reads (.mark '(' :: (e.tokens ++ .mark ')' ::
      (ClassExpr.tokensMore "and" more ++ t :: rest))) (.inter e more) (t :: rest) := by
    rw [conjunction]
    refine (reads_operand he (by omega)).bind ((reads_moreConjuncts hmore (by omega) ht).bind ?_)
    obtain ⟨d, more, rfl⟩ := List.exists_cons_of_ne_nil hne
    exact reads_pure
  rw [disjunction]
  exact hconjunction.bind
    ((reads_moreDisjuncts_nil (by omega) (isKeyword_of_kind ht)).bind reads_pure)

lemma readable_union (hne : more ≠ []) (he : Readable s e) (hmore : ∀ d ∈ more, Readable s d) :
    Readable s (.union e more) := by
  intro n t rest hn ht
  rw [ClassExpr.tokens] at hn ⊢
  simp only [List.cons_append, List.append_assoc, List.length_cons, List.length_append] at hn ⊢
  obtain ⟨m, rfl⟩ : ∃ m, n = m + 1 := ⟨n - 1, by omega⟩
  rw [disjunction]
  refine (reads_first he (by omega) ht).bind ((reads_moreDisjuncts hmore (by omega) ht).bind ?_)
  obtain ⟨d, more, rfl⟩ := List.exists_cons_of_ne_nil hne
  exact reads_pure

lemma readable_complement (he : Readable s e) : Readable s (.complement e) := by
  intro n t rest hn ht
  rw [ClassExpr.tokens] at hn ⊢
  simp only [List.cons_append, List.nil_append, List.append_assoc, List.length_cons,
    List.length_append, List.length_nil] at hn ⊢
  obtain ⟨m, rfl⟩ : ∃ m, n = m + 1 + 2 := ⟨n - 3, by omega⟩
  refine reads_disjunction ?_ (by omega) ht
  rw [primary]
  refine (reads_atKeyword (by decide)).test_true ((reads_advance (by simp)).bind ?_)
  exact (reads_operand he (by omega)).bind reads_pure

lemma readable_some (hproperty : s.prefixes.Keeps name) (he : Readable s e) :
    Readable s (.some name e) := by
  intro n t rest hn ht
  rw [ClassExpr.tokens] at hn ⊢
  simp only [List.cons_append, List.nil_append, List.append_assoc, List.length_cons,
    List.length_append, List.length_nil] at hn ⊢
  obtain ⟨m, rfl⟩ : ∃ m, n = m + 1 + 2 := ⟨n - 3, by omega⟩
  refine reads_disjunction (reads_iri hproperty ?_) (by omega) ht
  refine (reads_atKeyword (by decide)).test_true ((reads_advance (by simp)).bind ?_)
  exact (reads_operand he (by omega)).bind reads_pure

lemma readable_value (hproperty : s.prefixes.Keeps name)
    (hx : ∃ iri, x = .iri iri ∧ s.prefixes.Keeps iri) : Readable s (.value name x) := by
  obtain ⟨iri, rfl, hiri⟩ := hx
  intro n t rest hn ht
  rw [ClassExpr.tokens] at hn ⊢
  obtain ⟨m, rfl⟩ : ∃ m, n = m + 1 + 2 := ⟨n - 3, by simp at hn; omega⟩
  refine reads_disjunction (reads_iri hproperty ?_) (by omega) ht
  refine (reads_atKeyword (by decide)).test_false ?_
  refine (reads_atKeyword (by decide)).test_true ((reads_advance (by simp)).bind ?_)
  exact (reads_individual hiri).bind reads_pure

lemma readable_oneOf (hne : xs ≠ [])
    (hxs : ∀ x ∈ xs, ∃ iri, x = .iri iri ∧ s.prefixes.Keeps iri) : Readable s (.oneOf xs) := by
  obtain ⟨x, more, rfl⟩ := List.exists_cons_of_ne_nil hne
  obtain ⟨⟨iri, rfl, hiri⟩, hmore⟩ := List.forall_mem_cons.1 hxs
  intro n t rest hn ht
  rw [ClassExpr.tokens, ClassExpr.individualTokens] at hn ⊢
  simp only [List.cons_append, List.nil_append, List.append_assoc, List.length_cons,
    List.length_append, List.length_nil] at hn ⊢
  have henough : more.length ≤
      (ClassExpr.moreIndividuals more ++ .mark '\x7d' :: t :: rest).length := by
    simp [ClassExpr.moreIndividuals]
    omega
  obtain ⟨m, rfl⟩ : ∃ m, n = m + 1 + 2 := ⟨n - 3, by omega⟩
  refine reads_disjunction ?_ (by omega) ht
  rw [primary]
  refine (reads_atKeyword (isKeyword_of_kind (by decide))).test_false ?_
  refine (reads_atPunct (by decide)).test_false ((reads_atPunct (by decide)).test_true ?_)
  refine (reads_advance (by simp)).bind ((reads_individual hiri).bind (reads_get.bind ?_))
  refine (reads_individuals hmore henough (by decide)).bind ?_
  exact (reads_close (by decide)).bind reads_pure

/-- An expression is read back from its tokens: each operand stands in parentheses, so that no
connective of one is taken for a connective of the other. -/
lemma readable (hregular : e.Regular) (hiris : e.AllIris s.prefixes.Keeps) : Readable s e := by
  induction e using ClassExpr.induction with
  | named iri =>
    rw [ClassExpr.AllIris] at hiris
    exact readable_named hiris
  | inter first more hfirst hmore =>
    rw [ClassExpr.Regular] at hregular
    rw [ClassExpr.AllIris] at hiris
    obtain ⟨hne, hregular, hall⟩ := hregular
    exact readable_inter hne (hfirst hregular hiris.1) fun e he =>
      hmore e he (hall e he) (hiris.2 e he)
  | union first more hfirst hmore =>
    rw [ClassExpr.Regular] at hregular
    rw [ClassExpr.AllIris] at hiris
    obtain ⟨hne, hregular, hall⟩ := hregular
    exact readable_union hne (hfirst hregular hiris.1) fun e he =>
      hmore e he (hall e he) (hiris.2 e he)
  | complement e he =>
    rw [ClassExpr.Regular] at hregular
    rw [ClassExpr.AllIris] at hiris
    exact readable_complement (he hregular hiris)
  | some property filler hfiller =>
    rw [ClassExpr.Regular] at hregular
    rw [ClassExpr.AllIris] at hiris
    exact readable_some hiris.1 (hfiller hregular hiris.2)
  | value property individual =>
    rw [ClassExpr.AllIris] at hiris
    exact readable_value hiris.1 hiris.2
  | oneOf individuals =>
    rw [ClassExpr.Regular] at hregular
    rw [ClassExpr.AllIris] at hiris
    exact readable_oneOf hregular hiris

end Step

/-- A text is read from its tokens, with fuel enough for them. -/
lemma read_of_reads {d : Token} (hd : d.kind = .done)
    (htokens : tokensFrom 0 source.toList = .ok (ts ++ [d]))
    (h : (Step.disjunction s (4 * (ts ++ [d]).length + 4)).Reads (ts ++ [d]) e [d]) :
    ClassExpr.read s source = .ok e := by
  have hwhole : (Step.whole s).Reads (ts ++ [d]) e [d] := by
    rw [Step.whole]
    refine Step.reads_get.bind (h.bind (Step.reads_current.bind ?_))
    rw [if_neg (by simp [hd])]
    exact Step.reads_pure
  rw [ClassExpr.read, htokens]
  exact map_eq_ok.2 ⟨_, hwhole, rfl⟩

lemma read_text (hregular : e.Regular) (hiris : e.AllIris s.prefixes.Keeps) :
    ClassExpr.read s e.text = .ok e := by
  have htokens : tokensFrom 0 e.text.toList = .ok (e.tokens ++ [⟨.done, ""⟩]) := by
    have hspells := spells_text (hiris.mono fun _ h => h.unclosed) []
    rwa [List.append_nil] at hspells
  refine read_of_reads rfl htokens (Step.readable hregular hiris _ ⟨.done, ""⟩ [] ?_ (by decide))
  simp
  omega

/-- **The text of a class expression** is read as the expression, with the same prefixes and in any
default namespace, if all its individuals are IRIs and its IRIs are kept in angle brackets. -/
theorem parse_text (h : ClassExpr.parse s source = .ok e) (hiris : e.AllIris s.prefixes.Keeps)
    (ns : String) : ClassExpr.parse ⟨s.prefixes, ns⟩ e.text = .ok e := by
  have hread : ClassExpr.read ⟨s.prefixes, ns⟩ e.text = .ok e :=
    read_text (s := ⟨s.prefixes, ns⟩) (regular_of_parse h) hiris
  rw [ClassExpr.parse, hread]

theorem parse_text_nested :
    ClassExpr.parse ⟨Prefixes.empty.add "ex" "urn:", ""⟩
      "(<urn:x:A>) and ((not (<urn:x:B>)) or (<urn:x:p> some (\x7b<urn:a>, <urn:b>\x7d)))" =
    .ok (.inter (.named "urn:x:A") [.union (.complement (.named "urn:x:B"))
      [.some "urn:x:p" (.oneOf [.iri "urn:a", .iri "urn:b"])]]) := by
  have hread : ClassExpr.parse ⟨Prefixes.empty.add "ex" "urn:", "urn:x:"⟩
      "A and (not B or p some \x7b<urn:a>, ex:b\x7d)" =
      .ok (.inter (.named "urn:x:A") [.union (.complement (.named "urn:x:B"))
        [.some "urn:x:p" (.oneOf [.iri "urn:a", .iri "urn:b"])]]) := by
    cbv
  have hkeeps : ∀ iri ∈ ["urn:x:A", "urn:x:B", "urn:x:p", "urn:a", "urn:b"],
      (Prefixes.empty.add "ex" "urn:").Keeps iri := by
    have hshape : ∀ iri ∈ ["urn:x:A", "urn:x:B", "urn:x:p", "urn:a", "urn:b"],
        '>' ∉ iri.toList ∧ iri.toList = "urn".toList ++ ':' :: iri.toList.drop 4 := by decide
    exact fun iri h =>
      ⟨(hshape iri h).1, _, _, (hshape iri h).2, by decide, by decide +kernel⟩
  have hiris : ClassExpr.AllIris (Prefixes.empty.add "ex" "urn:").Keeps (.inter (.named "urn:x:A")
      [.union (.complement (.named "urn:x:B"))
        [.some "urn:x:p" (.oneOf [.iri "urn:a", .iri "urn:b"])]]) := by
    simp [ClassExpr.AllIris, hkeeps]
  exact parse_text hread hiris ""

end Semlift.Ontology
