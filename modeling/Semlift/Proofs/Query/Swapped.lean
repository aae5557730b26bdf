import Semlift.Proofs.Query.Spelling
import Semlift.Query.Parser

/-!
Two rows of tokens that are the same but for one thing: where the first has a marked text, the
second has the words of a constant. Of the queries read off them the second has the constant for
the text: a step of its reader follows one of the first if it succeeds whenever that one does, with
a related result. Single tokens are read here: away from the mark both do the same, at the mark one
reads the text and the other the constant.
-/

namespace Semlift.Query

open Semlift.Rdf Semlift.Text

/-! ### Putting a term in the place of a text -/

section Subst

variable (x : String) (t : Term)

def substTerm (c : Term) : Term := if c = .string x then t else c

def Node.subst : Node → Node
  | .term c => .term (substTerm x t c)
  | .var name => .var name

def Pattern.subst (p : Pattern) : Pattern :=
  ⟨p.subject.subst x t, p.predicate.subst x t, p.object.subst x t⟩

mutual

def Filter.subst : Filter → Filter
  | .var name => .var name
  | .const c => .const (substTerm x t c)
  | .not e => .not e.subst
  | .neg e => .neg e.subst
  | .connect c l r => .connect c l.subst r.subst
  | .relate r a b => .relate r a.subst b.subst
  | .operate o l r => .operate o l.subst r.subst
  | .call f args => .call f (Filter.substAll args)

def Filter.substAll : List Filter → List Filter
  | [] => []
  | e :: es => e.subst :: Filter.substAll es

end

/-- The query with a term in the place of a string constant. -/
def Select.subst (q : Select) : Select :=
  { q with
    patterns := q.patterns.map (Pattern.subst x t)
    filters := q.filters.map (Filter.subst x t) }

end Subst

/-! ### Tokens with the words of a constant in the place of a text -/

def mark (x : String) : Word := (.string, x)

def Token.isSign (u : Token) : Bool := u.kind == .punct && (u.text == "-" || u.text == "+")

def Token.isTag (u : Token) : Bool := u.kind == .punct && (u.text == "@" || u.text == "^^")

/-- The mark stands behind no sign and before no tag, so the reader takes it for a constant of its
own. -/
inductive Swapped (x : String) (ws : List Word) : List Token → List Token → Prop
  | nil : Swapped x ws [] []
  | same {a b : Token} {ts us : List Token} (h : a.word = b.word) (hne : a.word ≠ mark x)
      (hsign : a.isSign → ts.head?.map Token.word ≠ some (mark x)) (hrest : Swapped x ws ts us) :
      Swapped x ws (a :: ts) (b :: us)
  | here {m : Token} {vs ts us : List Token} (h : m.word = mark x) (hvs : vs.map Token.word = ws)
      (htag : ∀ u ∈ ts.head?, u.isTag = false) (hrest : Swapped x ws ts us) :
      Swapped x ws (m :: ts) (vs ++ us)

/-- Readers that have come equally far. -/
structure Alike (x : String) (ws : List Word) (t : Term) (q : Prefixes) (d e : Draft) : Prop where
  rest : Swapped x ws d.rest e.rest
  left : d.prefixes = q
  right : e.prefixes = q
  nextBlank : e.nextBlank = d.nextBlank
  patterns : e.patterns = d.patterns.map (Pattern.subst x t)
  filters : e.filters = d.filters.map (Filter.subst x t)

def Draft.head (d : Draft) : Token := d.rest.headD ⟨.done, "", 0⟩

/-! ### The current token -/

variable {x : String} {ws : List Word} {t : Term} {q : Prefixes} {d e : Draft} {us : List Token}
  {text : String}

/-- The kinds of the first words of constants. -/
def isFirst (k : TokenKind) : Bool := k == .iri || k == .prefixed || k == .string

/-- What a constant begins with. -/
def Leads (ws : List Word) : Prop := ∃ w more, ws = w :: more ∧ isFirst w.1 = true

/-- The current tokens are the same, or the mark on one side and the constant on the other. -/
lemma head_cases (hws : Leads ws) (h : Alike x ws t q d e) :
    d.head.word ≠ mark x ∧ e.head.kind = d.head.kind ∧ e.head.text = d.head.text ∨
      d.head.word = mark x ∧ isFirst e.head.kind = true := by
  obtain ⟨w, more, rfl, hw⟩ := hws
  obtain ⟨ts, _, _, _, _⟩ := d
  obtain ⟨us, _, _, _, _⟩ := e
  have hrest : Swapped x (w :: more) ts us := h.rest
  unfold Draft.head
  cases hrest with
  | nil => exact .inl ⟨by simp [Token.word, mark], rfl, rfl⟩
  | same hword hne =>
    exact .inl ⟨hne, congrArg Prod.fst hword.symm, congrArg Prod.snd hword.symm⟩
  | here hword hvs =>
    obtain ⟨v, vs, rfl, rfl, -⟩ := List.map_eq_cons_iff.1 hvs
    exact .inr ⟨hword, hw⟩

lemma Spells.leads (h : Spells q ws text t) : Leads ws := by
  cases h with
  | iri h => cases h <;> exact ⟨_, _, rfl, rfl⟩
  | string => exact ⟨_, _, rfl, rfl⟩
  | typed => exact ⟨_, _, rfl, rfl⟩

lemma head_isTag (hws : Leads ws) {ts : List Token} (h : Swapped x ws ts us)
    (htag : ∀ u ∈ ts.head?, u.isTag = false) : ∀ u ∈ us.head?, u.isTag = false := by
  cases h with
  | nil => simp
  | @same a b _ _ hword =>
    obtain ⟨hkind, htext⟩ := Prod.mk.inj hword
    have ha := htag a rfl
    rintro _ ⟨⟩
    rwa [Token.isTag, ← hkind, ← htext]
  | @here _ vs _ _ _ hvs =>
    obtain ⟨w, more, rfl, hw⟩ := hws
    obtain ⟨v, vs, rfl, rfl, -⟩ := List.map_eq_cons_iff.1 hvs
    rintro _ ⟨⟩
    obtain ⟨kind, s, o⟩ := v
    cases kind <;> first | rfl | cases hw

/-- Tokens that no constant begins with are passed on both sides. -/
lemma Swapped.dropWhile (hws : Leads ws) {f : Word → Bool}
    (hf : ∀ w : Word, isFirst w.1 = true → f w = false) {ts : List Token}
    (h : Swapped x ws ts us) :
    Swapped x ws (ts.dropWhile (f ·.word)) (us.dropWhile (f ·.word)) ∧
      (us.takeWhile (f ·.word)).map Token.word = (ts.takeWhile (f ·.word)).map Token.word := by
  induction h with
  | nil => exact ⟨.nil, rfl⟩
  | @same a b ts us hword hne hsign hrest ih =>
    cases ha : f a.word with
    | true => simpa [← hword, ha] using ih
    | false => simpa [← hword, ha] using Swapped.same hword hne hsign hrest
  | @here m vs ts us hword hvs htag hrest =>
    have hm : f m.word = false := hword ▸ hf _ rfl
    have hmore := Swapped.here hword hvs htag hrest
    obtain ⟨w, more, rfl, hw⟩ := hws
    obtain ⟨v, vs, rfl, rfl, -⟩ := List.map_eq_cons_iff.1 hvs
    simpa [hm, hf _ hw] using hmore

lemma Swapped.length_le (hws : Leads ws) {ts : List Token} (h : Swapped x ws ts us) :
    ts.length ≤ us.length := by
  induction h with
  | nil => exact Nat.le_refl _
  | same _ _ _ _ ih => simpa using ih
  | @here m vs ts us hword hvs htag hrest ih =>
    obtain ⟨w, more, rfl, -⟩ := hws
    obtain ⟨v, vs, rfl, -⟩ := List.map_eq_cons_iff.1 hvs
    simp
    omega

namespace Step

variable {k : TokenKind} {p : String} {α β γ δ : Type}

/-- Whenever the first step gives a result, the second gives one that is related to it. -/
def Follows (y : Step α) (d : Draft) (z : Step β) (e : Draft)
    (V : α → Draft → β → Draft → Prop) : Prop :=
  ∀ a d', y.run.run d = (.ok a, d') → ∃ b e', z.run.run e = (.ok b, e') ∧ V a d' b e'

variable {y : Step α} {z : Step β} {f : α → Step γ} {g : β → Step δ}
  {V : α → Draft → β → Draft → Prop} {W : γ → Draft → δ → Draft → Prop}

lemma follows_pure {a : α} {b : β} (h : V a d b e) : Follows (pure a) d (pure b) e V := by
  rintro _ _ ⟨⟩
  exact ⟨b, e, rfl, h⟩

lemma follows_fail {fault : Fault} : Follows (fail fault : Step α) d z e V := by
  rintro _ _ ⟨⟩

lemma Follows.weaken {V' : α → Draft → β → Draft → Prop} (h : Follows y d z e V)
    (hV : ∀ a d' b e', V a d' b e' → V' a d' b e') : Follows y d z e V' := by
  intro a d' ha
  obtain ⟨b, e', hb, hab⟩ := h a d' ha
  exact ⟨b, e', hb, hV a d' b e' hab⟩

lemma follows_get {f : Draft → Step γ} {g : Draft → Step δ} {W : γ → Draft → δ → Draft → Prop}
    (h : Follows (f d) d (g e) e W) : Follows (get >>= f) d (get >>= g) e W := h

lemma follows_modify {u v : Draft → Draft} {W : Unit → Draft → Unit → Draft → Prop}
    (h : W () (u d) () (v e)) : Follows (modify u) d (modify v) e W := by
  rintro _ _ ⟨⟩
  exact ⟨(), v e, rfl, h⟩

lemma Follows.bind (h : Follows y d z e V)
    (hf : ∀ a d' b e', V a d' b e' → Follows (f a) d' (g b) e' W) :
    Follows (y >>= f) d (z >>= g) e W := by
  intro c d₂ hc
  rw [ExceptT.run_bind, StateT.run_bind] at hc
  cases hx : y.run.run d with
  | mk r d₁ =>
    rw [hx] at hc
    cases r with
    | error stop => cases hc
    | ok a =>
      obtain ⟨b, e₁, hy, hV⟩ := h a d₁ hx
      obtain ⟨b', e₂, hg, hW⟩ := hf a d₁ b e₁ hV c d₂ hc
      refine ⟨b', e₂, ?_, hW⟩
      rw [ExceptT.run_bind, StateT.run_bind, hy]
      exact hg

/-- A test of the current token that the first word of a constant does not pass. -/
structure Test (T : Step Bool) (f : Word → Bool) : Prop where
  run : ∀ d, T.run.run d = (.ok (f d.head.word), d)
  first : ∀ w, isFirst w.1 = true → f w = false

lemma test_atPunct : Test (atPunct p) fun w => w.1 == .punct && w.2 == p := by
  refine ⟨fun _ => rfl, fun w hw => ?_⟩
  obtain ⟨k, s⟩ := w
  cases k <;> first | rfl | cases hw

lemma test_atKeyword : Test (atKeyword p) fun w => w.1 == .word && upper w.2 == p := by
  refine ⟨fun _ => rfl, fun w hw => ?_⟩
  obtain ⟨k, s⟩ := w
  cases k <;> first | rfl | cases hw

lemma test_atKind (hk : isFirst k = false) : Test (atKind k) fun w => w.1 == k := by
  refine ⟨fun _ => rfl, fun w hw => beq_false_of_ne ?_⟩
  rintro rfl
  rw [hk] at hw
  cases hw

/-- Both sides take the same branch. -/
lemma Test.follows {T : Step Bool} {r : Word → Bool} {f : Bool → Step γ} {g : Bool → Step δ}
    (hT : Test T r) (hws : Leads ws) (h : Alike x ws t q d e)
    (ht : r d.head.word = true → d.head.word ≠ mark x → Follows (f true) d (g true) e W)
    (hf : r d.head.word = false → Follows (f false) d (g false) e W) :
    Follows (T >>= f) d (T >>= g) e W := by
  have hmark : r (mark x) = false := hT.first _ rfl
  have hsame : r e.head.word = r d.head.word := by
    rcases head_cases hws h with ⟨-, hkind, htext⟩ | ⟨hd, he⟩
    · rw [Token.word, hkind, htext, Token.word]
    · rw [hd, hmark, hT.first _ he]
  intro c d' hc
  rw [ExceptT.run_bind, StateT.run_bind, hT.run] at hc ⊢
  rw [hsame]
  cases hr : r d.head.word with
  | true =>
    rw [hr] at hc
    exact ht hr (fun heq => by rw [heq, hmark] at hr; cases hr) c d' hc
  | false =>
    rw [hr] at hc
    exact hf hr c d' hc

lemma Test.bind {T : Step Bool} {r : Word → Bool} {f : Bool → Step γ} {g : Bool → Step δ}
    (hT : Test T r) (hws : Leads ws) (h : Alike x ws t q d e)
    (hf : ∀ b, r d.head.word = b → Follows (f b) d (g b) e W) :
    Follows (T >>= f) d (T >>= g) e W :=
  hT.follows hws h (fun hr _ => hf true hr) fun hr => hf false hr

/-! ### Single tokens -/

/-- What follows the current token. -/
def after (d : Draft) : Draft := { d with rest := match d.rest with
  | t :: more => if t.kind = .done then t :: more else more
  | [] => [] }

/-- A token other than the mark is passed on both sides, and no mark stands behind a sign. -/
lemma after_alike (h : Alike x ws t q d e) (hd : d.head.word ≠ mark x) :
    Alike x ws t q (after d) (after e) ∧ (d.head.isSign → (after d).head.word ≠ mark x) := by
  obtain ⟨ts, _, _, _, _⟩ := d
  obtain ⟨us, _, _, _, _⟩ := e
  obtain ⟨hrest, hleft, hright, hblank, hpatterns, hfilters⟩ := h
  dsimp only at *
  cases hrest with
  | nil =>
    refine ⟨⟨.nil, hleft, hright, hblank, hpatterns, hfilters⟩, ?_⟩
    simp [Draft.head, Token.isSign]
  | @same a b ts us hword hne hsign hrest =>
    have hkind : b.kind = a.kind := (congrArg Prod.fst hword).symm
    by_cases hdone : a.kind = .done
    · refine ⟨⟨?_, hleft, hright, hblank, hpatterns, hfilters⟩, ?_⟩
      · simpa [after, hkind, hdone] using Swapped.same hword hne hsign hrest
      · simp [Draft.head, Token.isSign, hdone]
    · refine ⟨⟨?_, hleft, hright, hblank, hpatterns, hfilters⟩, fun hs => ?_⟩
      · simpa [after, hkind, hdone] using hrest
      · cases ts with
        | nil => simp [after, hdone, Draft.head, Token.word, mark]
        | cons u ts => simpa [after, hdone, Draft.head] using hsign hs
  | here hword => exact absurd hword hd

lemma follows_advance (h : Alike x ws t q d e) (hd : d.head.word ≠ mark x) :
    Follows advance d advance e fun _ d' _ e' => Alike x ws t q d' e' ∧
      (d.head.isSign → d'.head.word ≠ mark x) ∧ d' = after d ∧ e' = after e := by
  obtain ⟨h', hsign⟩ := after_alike h hd
  rintro _ _ ⟨⟩
  exact ⟨(), after e, rfl, h', hsign, rfl, rfl⟩

/-- The result is the same up to the term in the place of the text. -/
def Tracks (x : String) (ws : List Word) (t : Term) (q : Prefixes) (v : α → α) :
    α → Draft → α → Draft → Prop := fun a d b e => b = v a ∧ Alike x ws t q d e

lemma follows_current {f : Token → Step γ} {g : Token → Step δ}
    (h : Follows (f d.head) d (g e.head) e W) : Follows (current >>= f) d (current >>= g) e W := h

lemma follows_take (hws : Leads ws) (h : Alike x ws t q d e) (hd : d.head.word ≠ mark x) :
    Follows take d take e fun a d' b e' =>
      b = a ∧ Alike x ws t q d' e' ∧ d' = after d ∧ e' = after e := by
  have heq : e.head.text = d.head.text := by
    rcases head_cases hws h with ⟨-, -, htext⟩ | ⟨hm, -⟩
    · exact htext
    · exact absurd hm hd
  refine follows_current ((follows_advance h hd).bind fun _ d' _ e' h' => follows_pure ?_)
  exact ⟨heq, h'.1, h'.2.2⟩

lemma follows_punct (hws : Leads ws) (h : Alike x ws t q d e) :
    Follows (punct p) d (punct p) e fun _ d' _ e' =>
      Alike x ws t q d' e' ∧ d' = after d ∧ e' = after e :=
  test_atPunct.follows hws h
    (fun _ hd => (follows_advance h hd).weaken fun _ _ _ _ ⟨h, _, hafter⟩ => ⟨h, hafter⟩)
    fun _ => follows_fail

lemma follows_keyword (hws : Leads ws) (h : Alike x ws t q d e) :
    Follows (keyword p) d (keyword p) e fun _ d' _ e' =>
      Alike x ws t q d' e' ∧ d' = after d ∧ e' = after e :=
  test_atKeyword.follows hws h
    (fun _ hd => (follows_advance h hd).weaken fun _ _ _ _ ⟨h, _, hafter⟩ => ⟨h, hafter⟩)
    fun _ => follows_fail

lemma follows_iri (hws : Leads ws) (h : Alike x ws t q d e) :
    Follows iri d iri e fun a d' b e' => b = a ∧ a.isIri ∧ Alike x ws t q d' e' := by
  refine follows_current ?_
  rcases head_cases hws h with ⟨hd, hkind, htext⟩ | ⟨hd, -⟩
  · rw [hkind, htext]
    split
    · exact (follows_advance h hd).bind fun _ _ _ _ h' => follows_pure ⟨rfl, rfl, h'.1⟩
    · refine follows_get ?_
      rw [h.left, h.right]
      split
      · exact (follows_advance h hd).bind fun _ _ _ _ h' => follows_pure ⟨rfl, rfl, h'.1⟩
      · exact follows_fail
    · exact follows_fail
  · rw [show d.head.kind = .string from congrArg Prod.fst hd]
    exact follows_fail

lemma isSign_of_atPunct (hp : p = "-" ∨ p = "+")
    (h : (d.head.word.1 == .punct && d.head.word.2 == p) = true) : d.head.isSign = true := by
  simp only [Token.word, Bool.and_eq_true, beq_iff_eq] at h
  rcases hp with rfl | rfl <;> simp [Token.isSign, h]

lemma follows_sign (hws : Leads ws) (h : Alike x ws t q d e) (hd : d.head.word ≠ mark x) :
    Follows sign d sign e fun a d' b e' =>
      b = a ∧ Alike x ws t q d' e' ∧ d'.head.word ≠ mark x := by
  refine test_atPunct.follows hws h (fun hsign _ => ?_) fun _ => ?_
  · exact (follows_advance h hd).bind fun _ _ _ _ h' =>
      follows_pure ⟨rfl, h'.1, h'.2.1 (isSign_of_atPunct (.inl rfl) hsign)⟩
  · refine test_atPunct.follows hws h (fun hsign _ => ?_) fun _ => follows_pure ⟨rfl, h, hd⟩
    exact (follows_advance h hd).bind fun _ _ _ _ h' =>
      follows_pure ⟨rfl, h'.1, h'.2.1 (isSign_of_atPunct (.inr rfl) hsign)⟩

lemma typed_ne_string {lexical datatype : String} (h : datatype ≠ Vocabulary.xsdString) :
    Term.typed lexical datatype ≠ .string x := fun heq => h (Term.literal.inj heq).2.1

/-- The mark is read as a constant only where it stands. -/
lemma follows_constant (hws : Leads ws) (h : Alike x ws t q d e) (hd : d.head.word ≠ mark x) :
    Follows constant d constant e fun a d' b e' =>
      b = a ∧ a ≠ .string x ∧ Alike x ws t q d' e' := by
  refine (follows_sign hws h hd).bind fun s d _ e ⟨hs, h, hd⟩ => follows_current ?_
  subst hs
  obtain ⟨hkind, htext⟩ : e.head.kind = d.head.kind ∧ e.head.text = d.head.text :=
    (head_cases hws h).elim And.right fun hm => absurd hm.1 hd
  rw [hkind, htext]
  split
  · rename_i hstring
    have hne : d.head.text ≠ x := by
      rintro rfl
      exact hd (Prod.ext hstring rfl)
    have hliteral (dt lang) : Term.literal d.head.text dt lang ≠ .string x :=
      fun heq => hne (Term.literal.inj heq).1
    refine (follows_advance h hd).bind fun _ _ _ _ ⟨h, _⟩ => ?_
    refine test_atPunct.follows hws h (fun _ hd => ?_) fun _ => ?_
    · refine (follows_advance h hd).bind fun _ _ _ _ ⟨h, _⟩ => ?_
      refine (test_atKind rfl).follows hws h (fun _ hd => ?_) fun _ => follows_fail
      refine (follows_take hws h hd).bind fun tag _ _ _ ⟨htag, h, _⟩ => ?_
      exact htag ▸ follows_pure ⟨rfl, hliteral _ _, h⟩
    · refine test_atPunct.follows hws h (fun _ hd => ?_) fun _ =>
        follows_pure ⟨rfl, hliteral _ _, h⟩
      refine (follows_advance h hd).bind fun _ _ _ _ ⟨h, _⟩ => ?_
      refine (follows_iri hws h).bind fun datatype _ _ _ ⟨hiri, _, h⟩ => ?_
      exact hiri ▸ follows_pure ⟨rfl, hliteral _ _, h⟩
  · exact (follows_advance h hd).bind fun _ _ _ _ ⟨h, _⟩ =>
      follows_pure ⟨rfl, typed_ne_string (by decide), h⟩
  · exact (follows_advance h hd).bind fun _ _ _ _ ⟨h, _⟩ =>
      follows_pure ⟨rfl, typed_ne_string (by decide), h⟩
  · exact (follows_advance h hd).bind fun _ _ _ _ ⟨h, _⟩ =>
      follows_pure ⟨rfl, typed_ne_string (by decide), h⟩
  · split
    · exact (follows_advance h hd).bind fun _ _ _ _ ⟨h, _⟩ =>
        follows_pure ⟨rfl, typed_ne_string (by decide), h⟩
    · exact follows_fail
  · exact follows_fail

/-! ### Where the constant stands -/

def Gives (y : Step β) (e : Draft) (b : β) (e' : Draft) : Prop := y.run.run e = (.ok b, e')

variable {vs : List Token} {n k' : Nat} {ps : List Pattern} {fs : List Filter}
  {u : Token} {w : Word} {iri : String}

lemma Gives.bind {y : Step β} {g : β → Step δ} {e e' e₂ : Draft} {b : β} {c : δ}
    (h : Gives y e b e') (hg : Gives (g b) e' c e₂) : Gives (y >>= g) e c e₂ := by
  unfold Gives at *
  rw [ExceptT.run_bind, StateT.run_bind, h]
  exact hg

lemma gives_prefixed {o : Nat} {s : String} (h : q.expand s = .ok iri) :
    Gives Step.iri ⟨⟨.prefixed, s, o⟩ :: us, q, k', ps, fs⟩ (.iri iri) ⟨us, q, k', ps, fs⟩ := by
  refine Gives.bind (y := current) rfl ?_
  refine Gives.bind (y := get) rfl ?_
  simp only [List.headD_cons, h]
  rfl

lemma gives_iri (h : Named q w text iri) (hu : u.word = w) :
    Gives Step.iri ⟨u :: us, q, k', ps, fs⟩ (.iri iri) ⟨us, q, k', ps, fs⟩ := by
  obtain ⟨kind, s, o⟩ := u
  cases h with
  | bracketed =>
    obtain ⟨rfl, rfl⟩ := Prod.mk.inj hu
    rfl
  | prefixed hname hns =>
    obtain ⟨rfl, rfl⟩ := Prod.mk.inj hu
    exact gives_prefixed (Prefixes.expand_name hname.isName hns)

/-- What comes after a quoted text, up to the constant that it is part of. -/
def tagged (s : String) : Step Term := do
  if ← atPunct "@" then
    advance
    if ← atKind .word then return .langString s (← take) else fail .noLanguage
  else if ← atPunct "^^" then
    advance
    return .typed s (← Step.iri).content
  else return .string s

lemma gives_constant {o : Nat} {s : String} {c : Term} {e' : Draft}
    (h : Gives (tagged s) ⟨us, q, k', ps, fs⟩ c e') :
    Gives constant ⟨⟨.string, s, o⟩ :: us, q, k', ps, fs⟩ c e' := h

lemma gives_atPunct {b : Bool} (h : (e.head.kind == .punct && e.head.text == p) = b) :
    Gives (atPunct p) e b e := by
  subst h
  rfl

lemma gives_untagged {s : String} (htag : ∀ u ∈ us.head?, u.isTag = false) :
    Gives (tagged s) ⟨us, q, k', ps, fs⟩ (.string s) ⟨us, q, k', ps, fs⟩ := by
  cases us with
  | nil => rfl
  | cons v us =>
    have hv := htag v rfl
    simp only [Token.isTag, Bool.and_or_distrib_left, Bool.or_eq_false_iff] at hv
    have hlang : Gives (atPunct "@") ⟨v :: us, q, k', ps, fs⟩ false ⟨v :: us, q, k', ps, fs⟩ :=
      gives_atPunct hv.1
    have hcarets : Gives (atPunct "^^") ⟨v :: us, q, k', ps, fs⟩ false ⟨v :: us, q, k', ps, fs⟩ :=
      gives_atPunct hv.2
    exact hlang.bind (hcarets.bind rfl)

/-- What reads a constant, as a name or as a quoted text. -/
def Reads (e : Draft) (c : Term) (e' : Draft) : Prop :=
  (e.head.kind = .iri ∨ e.head.kind = .prefixed) ∧ Gives Step.iri e c e' ∨
    e.head.kind = .string ∧ Gives constant e c e'

/-- A written constant is read as a name or as a quoted text. -/
lemma gives_spelled (h : Spells q ws text t) (hvs : vs.map Token.word = ws)
    (htag : ∀ u ∈ us.head?, u.isTag = false) :
    Reads ⟨vs ++ us, q, k', ps, fs⟩ t ⟨us, q, k', ps, fs⟩ := by
  cases h with
  | iri h =>
    obtain ⟨u, more, rfl, hu, hmore⟩ := List.map_eq_cons_iff.1 hvs
    obtain rfl := List.map_eq_nil_iff.1 hmore
    refine .inl ⟨?_, gives_iri h hu⟩
    cases h with
    | bracketed => exact .inl (congrArg Prod.fst hu)
    | prefixed => exact .inr (congrArg Prod.fst hu)
  | string =>
    obtain ⟨⟨kind, s, o⟩, more, rfl, hu, hmore⟩ := List.map_eq_cons_iff.1 hvs
    obtain rfl := List.map_eq_nil_iff.1 hmore
    obtain ⟨rfl, rfl⟩ := Prod.mk.inj hu
    exact .inr ⟨rfl, gives_constant (gives_untagged htag)⟩
  | typed h =>
    obtain ⟨⟨kind, s, o⟩, more, rfl, hu, hmore⟩ := List.map_eq_cons_iff.1 hvs
    obtain ⟨⟨kind', s', o'⟩, more, rfl, hcarets, hmore⟩ := List.map_eq_cons_iff.1 hmore
    obtain ⟨u, more, rfl, hdatatype, hmore⟩ := List.map_eq_cons_iff.1 hmore
    obtain rfl := List.map_eq_nil_iff.1 hmore
    obtain ⟨rfl, rfl⟩ := Prod.mk.inj hu
    obtain ⟨rfl, rfl⟩ := Prod.mk.inj hcarets
    exact .inr ⟨rfl, gives_constant ((gives_iri h hdatatype).bind rfl)⟩

/-- At the mark one side reads the text and the other the constant. -/
lemma mark_alike (hws : Spells q ws text t) (h : Alike x ws t q d e) (hd : d.head.word = mark x) :
    ∃ d' e', Alike x ws t q d' e' ∧ Reads d (.string x) d' ∧ Reads e t e' := by
  obtain ⟨ts, dp, _, _, _⟩ := d
  obtain ⟨us, ep, _, _, _⟩ := e
  obtain ⟨hrest, rfl, hright, hblank, hpatterns, hfilters⟩ := h
  dsimp only at *
  cases hrest with
  | nil => simp [Draft.head, Token.word, mark] at hd
  | same _ hne => exact absurd hd hne
  | @here m vs ts us _ hvs htag hrest =>
    obtain ⟨kind, s, o⟩ := m
    obtain ⟨rfl, rfl⟩ := Prod.mk.inj hd
    subst hright
    refine ⟨_, _, ⟨hrest, rfl, rfl, hblank, hpatterns, hfilters⟩,
      .inr ⟨rfl, gives_constant (gives_untagged htag)⟩,
      gives_spelled hws hvs (head_isTag hws.leads hrest htag)⟩

lemma eq_cons (h : e.head.kind = k) (hk : k ≠ .done) :
    ∃ s o us, e = { e with rest := ⟨k, s, o⟩ :: us } := by
  obtain ⟨us, _, _, _, _⟩ := e
  cases us with
  | nil => exact absurd h.symm hk
  | cons u us =>
    subst h
    exact ⟨u.text, u.offset, us, rfl⟩

lemma gives_node {c : Term} {e' : Draft} (h : Reads e c e') :
    Gives (node (n + 1)) e (.term c) e' := by
  have hconst {y : Step Term} (hy : Gives y e c e') :
      Gives (y >>= fun c => pure (Node.term c)) e (.term c) e' := hy.bind rfl
  unfold Gives
  rw [node]
  rcases h with ⟨hkind | hkind, h⟩ | ⟨hkind, h⟩
  all_goals
    obtain ⟨s, o, us, he⟩ := eq_cons hkind (by decide)
    have h' := hconst h
    rw [he] at h' ⊢
    exact h'

lemma gives_primary {c : Term} {e' : Draft} (h : Reads e c e') :
    Gives (primary (n + 1)) e (.const c) e' := by
  have hconst {y : Step Term} (hy : Gives y e c e') :
      Gives (y >>= fun c => pure (Filter.const c)) e (.const c) e' := hy.bind rfl
  unfold Gives
  rw [primary]
  rcases h with ⟨hkind | hkind, h⟩ | ⟨hkind, h⟩
  all_goals
    obtain ⟨s, o, us, he⟩ := eq_cons hkind (by decide)
    have h' := hconst h
    rw [he] at h' ⊢
    exact h'

lemma Gives.follows {c : α} {b : β} {d' e' : Draft} (hd : Gives y d c d') (he : Gives z e b e')
    (h : V c d' b e') : Follows y d z e V := by
  intro a d₂ ha
  cases hd.symm.trans ha
  exact ⟨b, e', he, h⟩

end Step

end Semlift.Query
