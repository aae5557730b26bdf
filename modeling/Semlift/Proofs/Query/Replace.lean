import Semlift.Proofs.Query.Swapped

/-!
Every part of a query is read alike from the tokens with the mark and from those with a constant in
its place: one lemma for each reader, by induction on its fuel where it calls itself. The second row
of tokens is the longer one, so its reader has at least as much fuel. Then a place in the text of a
query where a quoted text can stand is one for any constant: what is written there is read as that
constant.
-/

namespace Semlift.Query

open Semlift.Rdf Semlift.Text

namespace Step

variable {k : TokenKind} {p x : String} {ws : List Word} {t : Term} {q : Prefixes} {d e : Draft}
  {text : String} {α β γ δ : Type} {y : Step α} {z : Step β}
  {V : α → Draft → β → Draft → Prop} {W : γ → Draft → δ → Draft → Prop} {n m : Nat}

/-! ### Nodes -/

lemma substTerm_of_ne {c : Term} (h : c ≠ .string x) : substTerm x t c = c := if_neg h

lemma substTerm_iri {c : Term} (h : c.isIri = true) : substTerm x t c = c :=
  substTerm_of_ne (by rintro rfl; cases h)

/-- The mark is no name. -/
lemma iri_fails {f : Term → Step γ} {z : Step δ} (h : d.head.kind = .string) :
    Follows (Step.iri >>= f) d z e W := by
  intro c d' hc
  obtain ⟨s, o, us, hd⟩ := eq_cons h (by decide)
  rw [hd] at hc
  cases hc

lemma follows_verb (hws : Leads ws) (h : Alike x ws t q d e) :
    Follows verb d verb e (Tracks x ws t q (Node.subst x t)) := by
  have hiri : Follows (do return .term (← Step.iri)) d (do return .term (← Step.iri)) e
      (Tracks x ws t q (Node.subst x t)) :=
    (follows_iri hws h).bind fun a _ _ _ ⟨hb, ha, h⟩ =>
      follows_pure ⟨by rw [hb, Node.subst, substTerm_iri ha], h⟩
  refine follows_current ?_
  rcases head_cases hws h with ⟨hd, hkind, htext⟩ | ⟨hd, he⟩
  · rw [hkind, htext]
    split
    · exact (follows_advance h hd).bind fun _ _ _ _ ⟨h, _⟩ => follows_pure ⟨rfl, h⟩
    · split
      · exact (follows_advance h hd).bind fun _ _ _ _ ⟨h, _⟩ => follows_pure ⟨rfl, h⟩
      · exact hiri
  · have hstring : d.head.kind = .string := congrArg Prod.fst hd
    have hword : (d.head.kind = .word && d.head.text = "a") = false := by simp [hstring]
    have hvar : (d.head.kind = .var) = False := by simp [hstring]
    simp only [hword, hvar, if_false, Bool.false_eq_true]
    exact iri_fails hstring

lemma follows_emit {s p o : Node} (h : Alike x ws t q d e) :
    Follows (emit ⟨s, p, o⟩) d (emit ⟨s.subst x t, p.subst x t, o.subst x t⟩) e
      (Tracks x ws t q id) :=
  follows_modify ⟨rfl, { h with patterns := by simp [h.patterns, Pattern.subst] }⟩

lemma follows_freshNode (h : Alike x ws t q d e) :
    Follows freshNode d freshNode e (Tracks x ws t q (Node.subst x t)) := by
  have hnext (n : Nat) : Follows (modify fun d : Draft => { d with nextBlank := n + 1 }) d
      (modify fun d => { d with nextBlank := n + 1 }) e (Tracks x ws t q id) :=
    follows_modify ⟨rfl, { h with nextBlank := rfl }⟩
  refine follows_get ?_
  rw [h.nextBlank]
  exact (hnext _).bind fun _ _ _ _ ⟨_, h⟩ => follows_pure ⟨rfl, h⟩

lemma follows_semicolons (hws : Leads ws) (h : Alike x ws t q d e) :
    Follows semicolons d semicolons e (Tracks x ws t q id) := by
  have hrest := (h.rest.dropWhile hws (test_atPunct (p := ";")).first).1
  exact follows_modify ⟨rfl, { h with rest := hrest }⟩

/-- What the four readers of nodes that call each other do alike. -/
structure Nodes (x : String) (ws : List Word) (t : Term) (q : Prefixes) (n m : Nat) : Prop where
  node : ∀ d e, Alike x ws t q d e →
    Follows (node n) d (node m) e (Tracks x ws t q (Node.subst x t))
  bracketed : ∀ d e, Alike x ws t q d e →
    Follows (bracketed n) d (bracketed m) e (Tracks x ws t q (Node.subst x t))
  objects : ∀ s p d e, Alike x ws t q d e →
    Follows (objects n s p) d (objects m (s.subst x t) (p.subst x t)) e (Tracks x ws t q id)
  properties : ∀ s d e, Alike x ws t q d e →
    Follows (properties n s) d (properties m (s.subst x t)) e (Tracks x ws t q id)

lemma Nodes.node_succ (hws : Spells q ws text t) (ih : Nodes x ws t q n m)
    (h : Alike x ws t q d e) :
    Follows (Step.node (n + 1)) d (Step.node (m + 1)) e (Tracks x ws t q (Node.subst x t)) := by
  rcases head_cases hws.leads h with ⟨hd, hkind, htext⟩ | ⟨hd, -⟩
  · have hconst : Follows (do return .term (← constant)) d (do return .term (← constant)) e
        (Tracks x ws t q (Node.subst x t)) :=
      (follows_constant hws.leads h hd).bind fun a _ _ _ ha =>
        follows_pure ⟨by rw [ha.1, Node.subst, substTerm_of_ne ha.2.1], ha.2.2⟩
    have hiri : Follows (do return .term (← Step.iri)) d (do return .term (← Step.iri)) e
        (Tracks x ws t q (Node.subst x t)) :=
      (follows_iri hws.leads h).bind fun a _ _ _ ha =>
        follows_pure ⟨by rw [ha.1, Node.subst, substTerm_iri ha.2.1], ha.2.2⟩
    rw [Step.node, Step.node]
    refine follows_current ?_
    rw [hkind, htext]
    split
    · exact (follows_advance h hd).bind fun _ _ _ _ h => follows_pure ⟨rfl, h.1⟩
    · exact (follows_advance h hd).bind fun _ _ _ _ h => follows_pure ⟨rfl, h.1⟩
    · exact hiri
    · exact hiri
    · split_ifs
      · exact ih.bracketed d e h
      · exact hconst
      · exact follows_fail
    · exact hconst
  · obtain ⟨d', e', h', hleft, hright⟩ := mark_alike hws h hd
    exact (gives_node hleft).follows (gives_node hright) ⟨by simp [Node.subst, substTerm], h'⟩

lemma Nodes.bracketed_succ (hws : Leads ws) (ih : Nodes x ws t q n m) (h : Alike x ws t q d e) :
    Follows (Step.bracketed (n + 1)) d (Step.bracketed (m + 1)) e
      (Tracks x ws t q (Node.subst x t)) := by
  have hclose {a : Node} {d e : Draft} (h : Alike x ws t q d e) :
      Follows (do punct "]"; return a) d (do punct "]"; return a.subst x t) e
        (Tracks x ws t q (Node.subst x t)) :=
    (follows_punct hws h).bind fun _ _ _ _ ⟨h, _⟩ => follows_pure ⟨rfl, h⟩
  rw [Step.bracketed, Step.bracketed]
  refine (follows_punct hws h).bind fun _ _ _ _ ⟨h, _⟩ => ?_
  refine (follows_freshNode h).bind fun a _ _ _ ⟨hb, h⟩ => ?_
  rw [hb]
  refine test_atPunct.follows hws h (fun _ _ => hclose h) fun _ => ?_
  exact (ih.properties a _ _ h).bind fun _ _ _ _ ⟨_, h⟩ => hclose h

lemma Nodes.objects_succ {s p : Node} (hws : Leads ws) (ih : Nodes x ws t q n m)
    (h : Alike x ws t q d e) :
    Follows (Step.objects (n + 1) s p) d (Step.objects (m + 1) (s.subst x t) (p.subst x t)) e
      (Tracks x ws t q id) := by
  rw [Step.objects, Step.objects]
  refine (ih.node d e h).bind fun a _ _ _ ⟨hb, h⟩ => ?_
  rw [hb]
  refine (follows_emit h).bind fun _ _ _ _ ⟨_, h⟩ => ?_
  refine test_atPunct.follows hws h (fun _ hd => ?_) fun _ => follows_pure ⟨rfl, h⟩
  exact (follows_advance h hd).bind fun _ d e' e ⟨h, _⟩ => ih.objects s p d e h

lemma Nodes.properties_succ {s : Node} (hws : Leads ws) (ih : Nodes x ws t q n m)
    (h : Alike x ws t q d e) :
    Follows (Step.properties (n + 1) s) d (Step.properties (m + 1) (s.subst x t)) e
      (Tracks x ws t q id) := by
  rw [Step.properties, Step.properties]
  refine (follows_verb hws h).bind fun p d _ e ⟨hp, h⟩ => ?_
  rw [hp]
  refine (ih.objects s p d e h).bind fun _ _ _ _ ⟨_, h⟩ => ?_
  refine test_atPunct.follows hws h (fun _ _ => ?_) fun _ => follows_pure ⟨rfl, h⟩
  refine (follows_semicolons hws h).bind fun _ d _ e ⟨_, h⟩ => ?_
  refine test_atPunct.bind hws h fun point _ => test_atPunct.bind hws h fun brace _ =>
    test_atPunct.bind hws h fun bracket _ => ?_
  split
  · exact follows_pure ⟨rfl, h⟩
  · exact ih.properties s d e h

/-- The readers call each other with less fuel only, so the induction is on the fuel of all four. -/
lemma nodes (hws : Spells q ws text t) (hnm : n ≤ m) : Nodes x ws t q n m := by
  induction n generalizing m with
  | zero =>
    exact ⟨fun _ _ _ => follows_fail, fun _ _ _ => follows_fail, fun _ _ _ _ _ => follows_fail,
      fun _ _ _ _ => follows_fail⟩
  | succ n ih =>
    cases m with
    | zero => omega
    | succ m =>
      have ih := ih (Nat.le_of_succ_le_succ hnm)
      exact ⟨fun _ _ h => ih.node_succ hws h, fun _ _ h => ih.bracketed_succ hws.leads h,
        fun _ _ _ _ h => ih.objects_succ hws.leads h,
        fun _ _ _ h => ih.properties_succ hws.leads h⟩

/-! ### Filters -/

lemma substAll_eq {es : List Filter} : Filter.substAll x t es = es.map (Filter.subst x t) := by
  induction es with
  | nil => rfl
  | cons e es ih => simp [Filter.substAll, ih]

/-- What the four readers of filters that call each other do alike. -/
structure Filters (x : String) (ws : List Word) (t : Term) (q : Prefixes) (n m : Nat) : Prop where
  expression : ∀ l d e, Alike x ws t q d e →
    Follows (expression n l) d (expression m l) e (Tracks x ws t q (Filter.subst x t))
  chain : ∀ l so d e, Alike x ws t q d e →
    Follows (chain n l so) d (chain m l (so.subst x t)) e (Tracks x ws t q (Filter.subst x t))
  primary : ∀ d e, Alike x ws t q d e →
    Follows (primary n) d (primary m) e (Tracks x ws t q (Filter.subst x t))
  arguments : ∀ d e, Alike x ws t q d e →
    Follows (arguments n) d (arguments m) e (Tracks x ws t q (List.map (Filter.subst x t)))

lemma subst_operator? {l : Level} {s : String} {op : Filter → Filter → Filter}
    (h : l.operator? s = some op) (a b : Filter) :
    (op a b).subst x t = op (a.subst x t) (b.subst x t) := by
  unfold Level.operator? at h
  split at h <;> cases h <;> rfl

lemma follows_function (hws : Leads ws) (h : Alike x ws t q d e) (hd : d.head.word ≠ mark x) :
    Follows function d function e (Tracks x ws t q id) := by
  refine (follows_take hws h hd).bind fun name _ _ _ ⟨hname, h, _⟩ => ?_
  rw [hname]
  dsimp only [id]
  split
  · exact follows_pure ⟨rfl, h⟩
  · exact follows_fail

lemma Filters.unary_succ (hws : Leads ws) (ih : Filters x ws t q n m) (h : Alike x ws t q d e) :
    Follows (Step.expression (n + 1) .unary) d (Step.expression (m + 1) .unary) e
      (Tracks x ws t q (Filter.subst x t)) := by
  rw [Step.expression, Step.expression]
  refine test_atPunct.follows hws h (fun _ hd => ?_) fun _ => ?_
  · refine (follows_advance h hd).bind fun _ _ _ _ ⟨h, _⟩ => ?_
    refine (ih.expression _ _ _ h).bind fun a _ _ _ ⟨ha, h⟩ => ?_
    exact ha ▸ follows_pure ⟨rfl, h⟩
  · refine test_atPunct.follows hws h (fun _ hd => ?_) fun _ => ?_
    · refine (follows_advance h hd).bind fun _ _ _ _ ⟨h, _⟩ => ?_
      refine (ih.expression _ _ _ h).bind fun a _ _ _ ⟨ha, h⟩ => ?_
      exact ha ▸ follows_pure ⟨rfl, h⟩
    · refine test_atPunct.follows hws h (fun _ hd => ?_) fun _ => ih.primary _ _ h
      exact (follows_advance h hd).bind fun _ d _ e ⟨h, _⟩ => ih.primary d e h

lemma Filters.expression_succ {l : Level} (hws : Leads ws) (ih : Filters x ws t q n m)
    (h : Alike x ws t q d e) :
    Follows (Step.expression (n + 1) l) d (Step.expression (m + 1) l) e
      (Tracks x ws t q (Filter.subst x t)) := by
  by_cases hl : l = .unary
  · subst hl
    exact ih.unary_succ hws h
  · rw [Step.expression, Step.expression]
    · refine (ih.expression _ _ _ h).bind fun a _ _ _ ⟨ha, h⟩ => ?_
      exact ha ▸ ih.chain _ _ _ _ h
    · exact hl
    · exact hl

lemma Filters.chain_succ {l : Level} {so : Filter} (hws : Leads ws) (ih : Filters x ws t q n m)
    (h : Alike x ws t q d e) :
    Follows (Step.chain (n + 1) l so) d (Step.chain (m + 1) l (so.subst x t)) e
      (Tracks x ws t q (Filter.subst x t)) := by
  rw [Step.chain, Step.chain]
  refine follows_current ?_
  rcases head_cases hws h with ⟨hd, hkind, htext⟩ | ⟨hd, he⟩
  · rw [hkind, htext]
    split
    · exact follows_pure ⟨rfl, h⟩
    · rename_i op hop
      split_ifs at hop
      refine (follows_advance h hd).bind fun _ _ _ _ ⟨h, _⟩ => ?_
      refine (ih.expression _ _ _ h).bind fun next _ _ _ ⟨hnext, h⟩ => ?_
      rw [hnext, ← subst_operator? hop]
      split
      · exact ih.chain _ _ _ _ h
      · exact follows_pure ⟨rfl, h⟩
  · have hleft : d.head.kind ≠ .punct := by
      rw [show d.head.kind = .string from congrArg Prod.fst hd]
      decide
    have hright : e.head.kind ≠ .punct := fun hk => by
      rw [hk] at he
      cases he
    rw [if_neg hleft, if_neg hright]
    exact follows_pure ⟨rfl, h⟩

lemma Filters.call {f : Function} (hws : Leads ws) (ih : Filters x ws t q n m)
    (h : Alike x ws t q d e) :
    Follows (do
        let args ← if ← atPunct ")" then pure [] else Step.arguments n
        punct ")"
        return .call f args) d
      (do
        let args ← if ← atPunct ")" then pure [] else Step.arguments m
        punct ")"
        return .call f args) e (Tracks x ws t q (Filter.subst x t)) := by
  have hclose {args : List Filter} {d e : Draft} (h : Alike x ws t q d e) :
      Follows (do punct ")"; return .call f args) d
        (do punct ")"; return .call f (args.map (Filter.subst x t))) e
        (Tracks x ws t q (Filter.subst x t)) :=
    (follows_punct hws h).bind fun _ _ _ _ ⟨h, _⟩ =>
      follows_pure ⟨by rw [Filter.subst, substAll_eq], h⟩
  refine test_atPunct.follows hws h (fun _ _ => ?_) fun _ => ?_
  · exact hclose h
  · exact (ih.arguments _ _ h).bind fun args _ _ _ ⟨hargs, h⟩ => hargs ▸ hclose h

lemma Filters.primary_succ (hws : Spells q ws text t) (ih : Filters x ws t q n m)
    (h : Alike x ws t q d e) :
    Follows (Step.primary (n + 1)) d (Step.primary (m + 1)) e
      (Tracks x ws t q (Filter.subst x t)) := by
  rcases head_cases hws.leads h with ⟨hd, hkind, htext⟩ | ⟨hd, -⟩
  · have hconst : Follows (do return .const (← constant)) d (do return .const (← constant)) e
        (Tracks x ws t q (Filter.subst x t)) :=
      (follows_constant hws.leads h hd).bind fun a _ _ _ ha =>
        follows_pure ⟨by rw [ha.1, Filter.subst, substTerm_of_ne ha.2.1], ha.2.2⟩
    have hiri : Follows (do return .const (← Step.iri)) d (do return .const (← Step.iri)) e
        (Tracks x ws t q (Filter.subst x t)) :=
      (follows_iri hws.leads h).bind fun a _ _ _ ha =>
        follows_pure ⟨by rw [ha.1, Filter.subst, substTerm_iri ha.2.1], ha.2.2⟩
    rw [Step.primary, Step.primary]
    refine follows_current ?_
    rw [hkind, htext]
    refine test_atPunct.follows hws.leads h (fun _ hd => ?_) fun _ => ?_
    · refine (follows_advance h hd).bind fun _ _ _ _ h => ?_
      refine (ih.expression _ _ _ h.1).bind fun a _ _ _ ha => ?_
      exact (follows_punct hws.leads ha.2).bind fun _ _ _ _ h => follows_pure ⟨ha.1, h.1⟩
    · rw [if_neg Bool.false_ne_true, if_neg Bool.false_ne_true]
      split
      · exact (follows_advance h hd).bind fun _ _ _ _ h => follows_pure ⟨rfl, h.1⟩
      split
      · exact hiri
      split
      · refine (follows_function hws.leads h hd).bind fun f _ _ _ hf => ?_
        refine (follows_punct hws.leads hf.2).bind fun _ d _ e h => ?_
        rw [hf.1]
        exact ih.call hws.leads h.1
      · exact hconst
  · obtain ⟨d', e', h', hleft, hright⟩ := mark_alike hws h hd
    exact (gives_primary hleft).follows (gives_primary hright)
      ⟨by simp [Filter.subst, substTerm], h'⟩

lemma Filters.arguments_succ (hws : Leads ws) (ih : Filters x ws t q n m)
    (h : Alike x ws t q d e) :
    Follows (Step.arguments (n + 1)) d (Step.arguments (m + 1)) e
      (Tracks x ws t q (List.map (Filter.subst x t))) := by
  rw [Step.arguments, Step.arguments]
  refine (ih.expression _ _ _ h).bind fun a _ _ _ ⟨ha, h⟩ => ?_
  rw [ha]
  refine test_atPunct.follows hws h (fun _ hd => ?_) fun _ => follows_pure ⟨rfl, h⟩
  refine (follows_advance h hd).bind fun _ _ _ _ ⟨h, _⟩ => ?_
  refine (ih.arguments _ _ h).bind fun more _ _ _ ⟨hmore, h⟩ => ?_
  exact hmore ▸ follows_pure ⟨rfl, h⟩

lemma filters (hws : Spells q ws text t) (hnm : n ≤ m) : Filters x ws t q n m := by
  induction n generalizing m with
  | zero =>
    exact ⟨fun _ _ _ _ => follows_fail, fun _ _ _ _ _ => follows_fail, fun _ _ _ => follows_fail,
      fun _ _ _ => follows_fail⟩
  | succ n ih =>
    cases m with
    | zero => omega
    | succ m =>
      have ih := ih (Nat.le_of_succ_le_succ hnm)
      exact ⟨fun _ _ _ h => ih.expression_succ hws.leads h,
        fun _ _ _ _ h => ih.chain_succ hws.leads h,
        fun _ _ h => ih.primary_succ hws h, fun _ _ h => ih.arguments_succ hws.leads h⟩

/-! ### Groups -/

lemma follows_fuel (hws : Leads ws) (h : Alike x ws t q d e) :
    Follows fuel d fuel e fun n d' m e' => n ≤ m ∧ Alike x ws t q d' e' := by
  have hlen := h.rest.length_le hws
  exact follows_get (follows_pure ⟨by omega, h⟩)

lemma follows_triples (hws : Spells q ws text t) (h : Alike x ws t q d e) :
    Follows triples d triples e (Tracks x ws t q id) := by
  refine (follows_fuel hws.leads h).bind fun n d m e ⟨hnm, h⟩ => ?_
  have ih := nodes (x := x) hws hnm
  refine test_atPunct.follows hws.leads h (fun _ _ => ?_) fun _ => ?_
  · refine (ih.bracketed _ _ h).bind fun subject _ _ _ ⟨hs, h⟩ => ?_
    rw [hs]
    refine test_atPunct.bind hws.leads h fun point _ =>
      test_atPunct.bind hws.leads h fun brace _ => ?_
    split
    · exact follows_pure ⟨rfl, h⟩
    · exact ih.properties _ _ _ h
  · refine (ih.node _ _ h).bind fun subject _ _ _ ⟨hs, h⟩ => ?_
    exact hs ▸ ih.properties _ _ _ h

lemma follows_member (hws : Spells q ws text t) (h : Alike x ws t q d e) :
    Follows member d member e (Tracks x ws t q id) := by
  have hpoint {d e : Draft} (h : Alike x ws t q d e) :
      Follows (do if ← atPunct "." then advance) d (do if ← atPunct "." then advance) e
        (Tracks x ws t q id) :=
    test_atPunct.follows hws.leads h
      (fun _ hd => (follows_advance h hd).weaken fun _ _ _ _ h' => ⟨rfl, h'.1⟩)
      fun _ => follows_pure ⟨rfl, h⟩
  refine test_atKeyword.follows hws.leads h (fun _ hd => ?_) fun _ => ?_
  · refine (follows_advance h hd).bind fun _ _ _ _ ⟨h, _⟩ => ?_
    refine (follows_fuel hws.leads h).bind fun n _ m _ ⟨hnm, h⟩ => ?_
    refine ((filters hws hnm).primary _ _ h).bind fun f _ _ _ ⟨hf, h⟩ => ?_
    refine Follows.bind (V := Tracks x ws t q id) (follows_modify ⟨rfl, ?_⟩)
      fun _ _ _ _ ⟨_, h⟩ => hpoint h
    exact { h with filters := by simp [h.filters, hf] }
  · exact (follows_triples hws h).bind fun _ _ _ _ ⟨_, h⟩ => hpoint h

lemma follows_members {n m : Nat} (hws : Spells q ws text t) (hnm : n ≤ m)
    (h : Alike x ws t q d e) :
    Follows (members n) d (members m) e (Tracks x ws t q id) := by
  induction n generalizing m d e with
  | zero => exact follows_fail
  | succ n ih =>
    cases m with
    | zero => omega
    | succ m =>
      rw [members, members]
      refine test_atPunct.follows hws.leads h
        (fun _ hd => (follows_advance h hd).weaken fun _ _ _ _ h' => ⟨rfl, h'.1⟩) fun _ => ?_
      refine (test_atKind rfl).follows hws.leads h (fun _ _ => follows_fail) fun _ => ?_
      exact (follows_member hws h).bind fun _ _ _ _ ⟨_, h⟩ => ih (Nat.le_of_succ_le_succ hnm) h

lemma follows_group (hws : Spells q ws text t) (h : Alike x ws t q d e) :
    Follows group d group e (Tracks x ws t q id) := by
  refine (follows_punct hws.leads h).bind fun _ d _ e ⟨h, _⟩ => follows_get ?_
  have hlen := h.rest.length_le hws.leads
  exact follows_members hws (by omega) h

/-! ### What stands around the group -/

lemma after_length_le : (after d).rest.length ≤ d.rest.length := by
  obtain ⟨ts, _, _, _, _⟩ := d
  cases ts with
  | nil => exact Nat.le_refl _
  | cons u ts =>
    dsimp only [after]
    split_ifs
    · exact Nat.le_refl _
    · simp

lemma after_length_lt (h : d.head.kind = k) (hk : k ≠ .done) :
    (after d).rest.length < d.rest.length := by
  obtain ⟨s, o, us, hd⟩ := eq_cons h hk
  rw [hd]
  simp [after, hk]

lemma rest_eq_nil (h : Alike x ws t q d e) (hws : Leads ws) :
    d.rest = [] ↔ e.rest = [] := by
  obtain ⟨ts, _, _, _, _⟩ := d
  obtain ⟨us, _, _, _, _⟩ := e
  have hrest : Swapped x ws ts us := h.rest
  cases hrest with
  | nil => exact Iff.rfl
  | same => simp
  | here _ hvs =>
    obtain ⟨w, more, rfl, -⟩ := hws
    obtain ⟨v, vs, rfl, -⟩ := List.map_eq_cons_iff.1 hvs
    simp

/-- The fuel on each side lasts for its tokens. -/
def Fits (n m : Nat) (d e : Draft) : Prop := d.rest.length ≤ n ∧ e.rest.length ≤ m

lemma Fits.after {n m : Nat} (h : Fits n m d e) : Fits n m (after d) (after e) :=
  ⟨Nat.le_trans after_length_le h.1, Nat.le_trans after_length_le h.2⟩

/-- Using up a token saves fuel. -/
lemma Fits.after_of_kind {n m : Nat} (hf : Fits (n + 1) (m + 1) d e) (hws : Leads ws)
    (h : Alike x ws t q d e) (hd : d.head.word ≠ mark x) (hk : d.head.kind = k) (hne : k ≠ .done) :
    Fits n m (Step.after d) (Step.after e) := by
  have hright : e.head.kind = k := by
    rcases head_cases hws h with ⟨-, he, -⟩ | ⟨hm, -⟩
    · rw [he, hk]
    · exact absurd hm hd
  exact ⟨Nat.le_of_lt_succ (Nat.lt_of_lt_of_le (after_length_lt hk hne) hf.1),
    Nat.le_of_lt_succ (Nat.lt_of_lt_of_le (after_length_lt hright hne) hf.2)⟩

lemma Fits.nil {n m : Nat} (hf : Fits n m d e) (h0 : n = 0 ∨ m = 0) (hws : Leads ws)
    (h : Alike x ws t q d e) : d.rest = [] ∧ e.rest = [] := by
  rcases h0 with rfl | rfl
  · have hnil := List.length_eq_zero_iff.1 (Nat.le_zero.1 hf.1)
    exact ⟨hnil, (rest_eq_nil h hws).1 hnil⟩
  · have hnil := List.length_eq_zero_iff.1 (Nat.le_zero.1 hf.2)
    exact ⟨(rest_eq_nil h hws).2 hnil, hnil⟩

lemma follows_fail_bind {fault : Fault} {f : β → Step α} {z : Step γ}
    {V : α → Draft → γ → Draft → Prop} : Follows (fail fault >>= f) d z e V := by
  rintro _ _ ⟨⟩

lemma follows_atKind {f : Bool → Step γ} {g : Bool → Step δ}
    (h : Follows (f (d.head.kind == k)) d (g (e.head.kind == k)) e W) :
    Follows (atKind k >>= f) d (atKind k >>= g) e W := h

lemma kind_of_atKeyword (h : (d.head.word.1 == .word && upper d.head.word.2 == p) = true) :
    d.head.kind = .word := by
  simp only [Bool.and_eq_true, beq_iff_eq] at h
  exact h.1

/-- Without tokens there is no declaration. -/
lemma prologue_nil {n : Nat} (h : d.rest = []) : (prologue n).run.run d = (.ok (), d) := by
  obtain ⟨ts, _, _, _, _⟩ := d
  cases h
  cases n with
  | zero => rfl
  | succ n =>
    rw [prologue]
    rfl

/-- Both sides declare the same prefix. -/
lemma follows_declare {ns : String} {name : List Char} (h : Alike x ws t q d e) :
    Follows
      (modify fun d : Draft => { d with prefixes := d.prefixes.add (String.ofList name) ns }) d
      (modify fun d => { d with prefixes := d.prefixes.add (String.ofList name) ns }) e
      fun _ d' _ e' => Alike x ws t (q.add (String.ofList name) ns) d' e' ∧
        d'.rest = d.rest ∧ e'.rest = e.rest :=
  follows_modify ⟨{ h with left := by rw [h.left], right := by rw [h.right] }, rfl, rfl⟩

/-- A declaration behind its keyword, and what comes next. -/
def declaring (next : Step Unit) : Step Unit := do
  advance
  let t ← current
  let named := t.text.toList
  if t.kind ≠ .prefixed || named.getLast? ≠ some ':' then fail .noPrefixName
  advance
  if !(← atKind .iri) then fail .noNamespace
  let ns ← take
  modify fun d => { d with prefixes := d.prefixes.add (String.ofList named.dropLast) ns }
  next

lemma prologue_succ {n : Nat} :
    prologue (n + 1) = (do if ← atKeyword "PREFIX" then declaring (prologue n)) := by
  rw [prologue]
  rfl

/-- Names and namespaces are no constants, so both sides declare the same. -/
lemma follows_declaring {n m : Nat} {y z : Step Unit} {V : Unit → Draft → Unit → Draft → Prop}
    (hws : Leads ws) (h : Alike x ws t q d e) (hd : d.head.word ≠ mark x)
    (hf : Fits n m (after d) (after e))
    (hnext : ∀ r d' e', Alike x ws t r d' e' → Fits n m d' e' → Follows y d' z e' V) :
    Follows (declaring y) d (declaring z) e V := by
  refine (follows_advance h hd).bind fun _ d₁ _ e₁ h₁ => follows_current ?_
  obtain ⟨h, -, hd₁, he₁⟩ := h₁
  rcases head_cases hws h with ⟨hd, hkind, htext⟩ | ⟨hd, -⟩
  · rw [hkind, htext]
    dsimp only
    split
    · exact follows_fail_bind
    refine (follows_advance h hd).bind fun _ d₂ _ e₂ h₂ => follows_atKind ?_
    obtain ⟨h, -, hd₂, he₂⟩ := h₂
    rcases head_cases hws h with ⟨hd, hkind, -⟩ | ⟨hd, -⟩
    · rw [hkind]
      split
      · exact follows_fail_bind
      refine (follows_take hws h hd).bind fun ns d₃ _ e₃ h₃ => ?_
      obtain ⟨hns, h, hd₃, he₃⟩ := h₃
      rw [hns]
      refine (follows_declare h).bind fun _ d₄ _ e₄ h₄ => hnext _ _ _ h₄.1 ?_
      rw [Fits, h₄.2.1, h₄.2.2, hd₃, he₃, hd₂, he₂, hd₁, he₁]
      exact hf.after.after
    · rw [show d₂.head.kind = .string from congrArg Prod.fst hd]
      exact follows_fail_bind
  · rw [if_pos (by simp [show d₁.head.kind = .string from congrArg Prod.fst hd])]
    exact follows_fail_bind

/-- Every declaration uses tokens, so the fuel lasts for them. -/
lemma follows_prologue {n m : Nat} (hws : Leads ws) (h : Alike x ws t q d e) (hf : Fits n m d e) :
    Follows (prologue n) d (prologue m) e fun _ d' _ e' => Alike x ws t d'.prefixes d' e' := by
  induction n generalizing m q d e with
  | zero =>
    obtain ⟨hd, he⟩ := hf.nil (.inl rfl) hws h
    exact (Gives.follows (prologue_nil hd) (prologue_nil he)) (h.left ▸ h)
  | succ n ih =>
    cases m with
    | zero =>
      obtain ⟨hd, he⟩ := hf.nil (.inr rfl) hws h
      exact (Gives.follows (prologue_nil hd) (prologue_nil he)) (h.left ▸ h)
    | succ m =>
      rw [prologue_succ, prologue_succ]
      refine test_atKeyword.follows hws h (fun hword hd => ?_) fun _ => follows_pure (h.left ▸ h)
      have hf := hf.after_of_kind hws h hd (kind_of_atKeyword hword) (by decide)
      exact follows_declaring hws h hd hf fun _ _ _ h hf => ih h hf

lemma follows_columnNames (hws : Leads ws) (h : Alike x ws t q d e) :
    Follows columnNames d columnNames e (Tracks x ws t q id) := by
  obtain ⟨hdrop, htake⟩ := h.rest.dropWhile hws (test_atKind (k := .var) rfl).first
  have hnames : (e.rest.takeWhile (·.kind == .var)).map (·.text) =
      (d.rest.takeWhile (·.kind == .var)).map (·.text) := by
    have := congrArg (List.map Prod.snd) htake
    rw [List.map_map, List.map_map] at this
    exact this
  refine follows_get ?_
  rw [hnames]
  refine Follows.bind (V := Tracks x ws t q id) (follows_modify ⟨rfl, ?_⟩) fun _ _ _ _ ⟨_, h⟩ =>
    follows_pure ⟨rfl, h⟩
  exact { h with rest := hdrop }

lemma follows_projection (hws : Leads ws) (h : Alike x ws t q d e) :
    Follows projection d projection e (Tracks x ws t q id) := by
  refine test_atPunct.follows hws h (fun _ hd => ?_) fun _ => ?_
  · exact (follows_advance h hd).bind fun _ _ _ _ ⟨h, _⟩ => follows_pure ⟨rfl, h⟩
  · refine (follows_columnNames hws h).bind fun names _ _ _ ⟨hnames, h⟩ => ?_
    rw [hnames]
    dsimp only [id]
    split
    · exact follows_fail_bind
    · exact follows_pure ⟨rfl, h⟩

lemma orderKeys_nil {n : Nat} (h : d.rest = []) : (orderKeys n).run.run d = (.ok [], d) := by
  obtain ⟨ts, _, _, _, _⟩ := d
  cases h
  cases n with
  | zero => rfl
  | succ n =>
    rw [orderKeys]
    rfl

/-- A key with its direction, and what comes next. -/
def directed (next : Step (List OrderKey)) : Step (List OrderKey) := do
  let descending ← atKeyword "DESC"
  advance
  punct "("
  if !(← atKind .var) then fail .noOrderVariable
  let name ← take
  punct ")"
  return ⟨name, descending⟩ :: (← next)

lemma orderKeys_succ {n : Nat} : orderKeys (n + 1) = (do
    if ← atKind .var then
      let name ← take
      return ⟨name, false⟩ :: (← orderKeys n)
    else if (← atKeyword "ASC") || (← atKeyword "DESC") then directed (orderKeys n)
    else return []) := by
  rw [orderKeys]
  rfl

lemma follows_directed {n m : Nat} {y z : Step (List OrderKey)} (hws : Leads ws)
    (h : Alike x ws t q d e) (hd : d.head.word ≠ mark x) (hf : Fits n m (after d) (after e))
    (hnext : ∀ d' e', Alike x ws t q d' e' → Fits n m d' e' →
      Follows y d' z e' (Tracks x ws t q id)) :
    Follows (directed y) d (directed z) e (Tracks x ws t q id) := by
  refine test_atKeyword.bind hws h fun descending _ => ?_
  refine (follows_advance h hd).bind fun _ d₁ _ e₁ h₁ => ?_
  obtain ⟨h, -, hd₁, he₁⟩ := h₁
  refine (follows_punct hws h).bind fun _ d₂ _ e₂ h₂ => ?_
  obtain ⟨h, hd₂, he₂⟩ := h₂
  refine (test_atKind rfl).follows hws h (fun _ hd => ?_) fun _ => follows_fail_bind
  refine (follows_take hws h hd).bind fun name d₃ _ e₃ h₃ => ?_
  obtain ⟨hname, h, hd₃, he₃⟩ := h₃
  refine (follows_punct hws h).bind fun _ d₄ _ e₄ h₄ => ?_
  obtain ⟨h, hd₄, he₄⟩ := h₄
  have hf : Fits n m d₄ e₄ := by
    rw [hd₄, he₄, hd₃, he₃, hd₂, he₂, hd₁, he₁]
    exact hf.after.after.after
  refine (hnext d₄ e₄ h hf).bind fun keys _ _ _ hkeys => ?_
  rw [hname, hkeys.1]
  exact follows_pure ⟨rfl, hkeys.2⟩

/-- Every key uses tokens, so the fuel lasts for them. -/
lemma follows_orderKeys {n m : Nat} (hws : Leads ws) (h : Alike x ws t q d e) (hf : Fits n m d e) :
    Follows (orderKeys n) d (orderKeys m) e (Tracks x ws t q id) := by
  induction n generalizing m d e with
  | zero =>
    obtain ⟨hd, he⟩ := hf.nil (.inl rfl) hws h
    exact Gives.follows (orderKeys_nil hd) (orderKeys_nil he) ⟨rfl, h⟩
  | succ n ih =>
    cases m with
    | zero =>
      obtain ⟨hd, he⟩ := hf.nil (.inr rfl) hws h
      exact Gives.follows (orderKeys_nil hd) (orderKeys_nil he) ⟨rfl, h⟩
    | succ m =>
      rw [orderKeys_succ, orderKeys_succ]
      refine (test_atKind rfl).follows hws h (fun hvar hd => ?_) fun _ => ?_
      · have hf := hf.after_of_kind hws h hd (beq_iff_eq.1 hvar) (by decide)
        refine (follows_take hws h hd).bind fun name _ _ _ h' => ?_
        obtain ⟨hname, h, hd', he'⟩ := h'
        rw [← hd', ← he'] at hf
        refine (ih h hf).bind fun keys _ _ _ hkeys => ?_
        rw [hname, hkeys.1]
        exact follows_pure ⟨rfl, hkeys.2⟩
      · refine test_atKeyword.bind hws h fun asc hasc =>
          test_atKeyword.bind hws h fun desc hdesc => ?_
        split
        · rename_i hor
          have hkind : d.head.kind = .word :=
            (Bool.or_eq_true_iff.1 hor).elim (fun h => kind_of_atKeyword (hasc.trans h))
              fun h => kind_of_atKeyword (hdesc.trans h)
          have hd : d.head.word ≠ mark x := fun hm => by
            cases hkind.symm.trans (congrArg Prod.fst hm)
          have hf := hf.after_of_kind hws h hd hkind (by decide)
          exact follows_directed hws h hd hf fun _ _ h hf => ih h hf
        · exact follows_pure ⟨rfl, h⟩

lemma follows_order (hws : Leads ws) (h : Alike x ws t q d e) :
    Follows order d order e (Tracks x ws t q id) := by
  refine test_atKeyword.follows hws h (fun _ hd => ?_) fun _ => follows_pure ⟨rfl, h⟩
  refine (follows_advance h hd).bind fun _ _ _ _ ⟨h, _⟩ => ?_
  refine (follows_keyword hws h).bind fun _ _ _ _ ⟨h, _⟩ => follows_get ?_
  refine (follows_orderKeys hws h ⟨Nat.le_refl _, Nat.le_refl _⟩).bind
    fun keys _ _ _ ⟨hkeys, h⟩ => ?_
  rw [hkeys]
  dsimp only [id]
  split
  · exact follows_fail_bind
  · exact follows_pure ⟨rfl, h⟩

lemma follows_count (hws : Leads ws) (h : Alike x ws t q d e) :
    Follows count d count e (Tracks x ws t q id) := by
  refine (test_atKind rfl).follows hws h (fun _ hd => ?_) fun _ => follows_fail_bind
  refine (follows_take hws h hd).bind fun digits _ _ _ ⟨hdigits, h, _⟩ => ?_
  rw [hdigits]
  dsimp only
  split
  · exact follows_pure ⟨rfl, h⟩
  · rintro _ _ ⟨⟩

lemma follows_bound {cuts : Option Nat × Option Nat} (hws : Leads ws) (h : Alike x ws t q d e) :
    Follows (bound cuts) d (bound cuts) e (Tracks x ws t q id) := by
  refine test_atKeyword.follows hws h (fun _ hd => ?_) fun _ => ?_
  · refine (follows_advance h hd).bind fun _ _ _ _ ⟨h, _⟩ => ?_
    exact (follows_count hws h).bind fun n _ _ _ ⟨hn, h⟩ => hn ▸ follows_pure ⟨rfl, h⟩
  · refine test_atKeyword.follows hws h (fun _ hd => ?_) fun _ => follows_pure ⟨rfl, h⟩
    refine (follows_advance h hd).bind fun _ _ _ _ ⟨h, _⟩ => ?_
    exact (follows_count hws h).bind fun n _ _ _ ⟨hn, h⟩ => hn ▸ follows_pure ⟨rfl, h⟩

lemma Follows.with_run (h : Follows y d z e V) :
    Follows y d z e fun a d' b e' => y.run.run d = (.ok a, d') ∧ V a d' b e' := by
  intro a d' ha
  obtain ⟨b, e', hb, hV⟩ := h a d' ha
  exact ⟨b, e', hb, ha, hV⟩

/-- A query from its group on. -/
def selected (distinct : Bool) (shown : Projection) : Step Select := do
  group
  let keys ← order
  let (limit, offset) ← bound (← bound (none, none))
  if !(← atKind .done) then fail (.afterQuery (← current).text)
  let d ← get
  return ⟨distinct, shown, d.patterns, d.filters, keys, limit, offset⟩

/-- A query from its projection on. -/
def projected (distinct : Bool) : Step Select := do
  let shown ← projection
  if ← atKeyword "WHERE" then advance
  selected distinct shown

lemma follows_selected {distinct : Bool} {shown : Projection} (hws : Spells q ws text t)
    (h : Alike x ws t q d e) : Follows (selected distinct shown) d (selected distinct shown) e
      fun a _ b _ => b = a.subst x t := by
  refine (follows_group hws h).bind fun _ _ _ _ ⟨_, h⟩ => ?_
  refine (follows_order hws.leads h).bind fun keys _ _ _ ⟨hkeys, h⟩ => ?_
  refine (follows_bound hws.leads h).bind fun cut _ _ _ ⟨hcut, h⟩ => ?_
  rw [hkeys, hcut]
  refine (follows_bound hws.leads h).bind fun cuts _ _ _ ⟨hcuts, h⟩ => ?_
  rw [hcuts]
  refine (test_atKind rfl).follows hws.leads h (fun _ _ => ?_) fun _ => ?_
  · refine follows_get (follows_pure ?_)
    rw [h.patterns, h.filters]
    rfl
  · exact follows_current follows_fail_bind

lemma follows_projected {distinct : Bool} (hws : Spells q ws text t) (h : Alike x ws t q d e) :
    Follows (projected distinct) d (projected distinct) e fun a _ b _ => b = a.subst x t := by
  refine (follows_projection hws.leads h).bind fun shown _ _ _ ⟨hshown, h⟩ => ?_
  rw [hshown]
  refine test_atKeyword.follows hws.leads h (fun _ hd => ?_) fun _ => follows_selected hws h
  exact (follows_advance h hd).bind fun _ _ _ _ ⟨h, _⟩ => follows_selected hws h

/-- A query with a constant in the place of the mark is the query with its term in that place. -/
lemma follows_query (hws : Leads ws) (h : Alike x ws t q d e)
    (hspell : ∀ d', (prologue d.rest.length).run.run d = (.ok (), d') →
      ∃ text, Spells d'.prefixes ws text t) :
    Follows query d query e fun a _ b _ => b = a.subst x t := by
  refine follows_get ?_
  have hprologue := follows_prologue hws h ⟨Nat.le_refl _, Nat.le_refl _⟩
  refine hprologue.with_run.bind fun _ d' _ e' ⟨hrun, h⟩ => ?_
  obtain ⟨text, hws⟩ := hspell d' hrun
  refine (follows_keyword hws.leads h).bind fun _ _ _ _ ⟨h, _⟩ => ?_
  refine test_atKeyword.follows hws.leads h (fun _ hd => ?_) fun _ => ?_
  · refine (follows_advance h hd).bind fun _ _ _ _ ⟨h, _⟩ => ?_
    exact follows_projected hws h
  · exact follows_projected hws h

end Step

/-! ### Places for constants -/

/-- A mark among tokens: there is one, no sign stands in front of it and no tag behind it. -/
structure Stands (x : String) (front back : List Token) : Prop where
  alone : ∀ u ∈ front ++ back, u.word ≠ mark x
  unsigned : ∀ u ∈ front.getLast?, u.isSign = false
  untagged : ∀ u ∈ back.head?, u.isTag = false

/-- The prefixes that the names of a query are resolved with. -/
def declared (ts : List Token) (p : Prefixes) : Prefixes :=
  ((Step.prologue ts.length).run.run ⟨ts, p, 0, [], []⟩).2.prefixes

/-- A place between two parts of a text where a constant can stand: the text with a string there is
the query `q`. -/
structure Place (p : Prefixes) (before after x : String) (q : Select) : Prop where
  clear : Clear before.toList
  ends : Ends after.toList
  plain : rereadText x = x
  reads : parse (before ++ quote x ++ after) p = .ok q
  stands : ∃ front m back, tokens (before ++ quote x ++ after) = .ok (front ++ m :: back) ∧
    m.offset = before.toList.length ∧ Stands x front back
  keeps : ∀ ts, tokens (before ++ quote x ++ after) = .ok ts → Keeps (declared ts p) p

variable {p : Prefixes} {before after text x : String} {q : Select} {t : Term} {ws : List Word}
  {front back back' us ts : List Token} {m : Token}

lemma swapped_same (h : ∀ u ∈ ts, u.word ≠ mark x)
    (hus : us.map Token.word = ts.map Token.word) : Swapped x ws ts us := by
  induction ts generalizing us with
  | nil =>
    rw [List.map_eq_nil_iff.1 hus]
    exact .nil
  | cons a ts ih =>
    obtain ⟨b, us, rfl, hb, hus⟩ := List.map_eq_cons_iff.1 hus
    refine .same hb.symm (h a (by simp)) (fun _ hm => ?_) (ih (fun u hu => h u (by simp [hu])) hus)
    obtain ⟨u, hu, hword⟩ := Option.map_eq_some_iff.1 hm
    exact h u (by simp [List.mem_of_mem_head? hu]) hword

lemma Stands.swapped (h : Stands x front back) (hm : m.word = mark x) (hus : us.map Token.word = ws)
    (hback : back'.map Token.word = back.map Token.word) :
    Swapped x ws (front ++ m :: back) (front ++ (us ++ back')) := by
  obtain ⟨halone, hunsigned, huntagged⟩ := h
  induction front with
  | nil =>
    have hsame : Swapped x ws back back' :=
      swapped_same (fun u hu => halone u (by simpa using hu)) hback
    rw [List.nil_append, List.nil_append]
    exact .here hm hus huntagged hsame
  | cons a front ih =>
    refine .same rfl (halone a (by simp)) (fun hs hmark => ?_) (ih ?_ ?_)
    · cases front with
      | nil => simp [hunsigned a rfl] at hs
      | cons b front => exact halone b (by simp) (by simpa using hmark)
    · exact fun u hu => halone u (by simp at hu ⊢; tauto)
    · cases front with
      | nil => simp
      | cons b front => simpa using hunsigned

/-- The tokens of the text with a constant in the place. -/
lemma tokens_place {r : Prefixes} (hplace : Place p before after x q)
    (hspell : Spells r ws text t) :
    ∃ ts us, tokens (before ++ quote x ++ after) = .ok ts ∧
      tokens (before ++ text ++ after) = .ok us ∧ Swapped x ws ts us := by
  obtain ⟨front, m, back, htokens, hoffset, hstands⟩ := hplace.stands
  have htext (s : String) : (before ++ s ++ after).toList =
      before.toList ++ (s.toList ++ after.toList) := by simp
  have hprobe : tokensFrom 0 0 (before.toList ++ ((quote x).toList ++ after.toList)) =
      .ok (front ++ m :: back) := by
    rw [← htext]
    exact htokens
  obtain ⟨hm, hfront⟩ := tokensFrom_place hplace.clear starts_quote hspell.starts hprobe
    (by rw [hoffset, Nat.zero_add])
  rw [tokensFrom_quote] at hm
  cases hback : tokensFrom 0 (0 + before.toList.length + (quote x).toList.length) after.toList with
  | error => rw [hback] at hm; cases hm
  | ok back₀ =>
    rw [hback] at hm
    cases hm
    obtain ⟨us, hus, hmore⟩ := hspell.tokens (o := 0 + before.toList.length) hplace.ends
    obtain ⟨back', hback', hwords⟩ := exists_tokensFrom hback
      (0 + before.toList.length + text.toList.length)
    refine ⟨_, front ++ (us ++ back'), htokens, ?_, hstands.swapped ?_ hus hwords⟩
    · rw [tokens, htext, hfront, hmore, hback']
      rfl
    · rw [Token.word, hplace.plain, mark]

/-- **A constant in its place** is read as the constant that its words spell, and nothing else
changes: the query is the one with the mark, up to that constant. -/
theorem parse_turtle (hp : ∀ e ∈ p.entries, PrefixName e.1) (hplace : Place p before after x q)
    (ht : Writable t) :
    parse (before ++ t.turtle p ++ after) p = .ok (q.subst x (rereadTerm t)) := by
  obtain ⟨front, m, back, hprobe, -⟩ := hplace.stands
  obtain ⟨ws, hspell⟩ := spells_turtle hp (hplace.keeps _ hprobe) ht
  obtain ⟨ts, us, hts, hus, hswapped⟩ := tokens_place hplace hspell
  cases hprobe.symm.trans hts
  have hstart : Alike x ws (rereadTerm t) p ⟨front ++ m :: back, p, 0, [], []⟩ ⟨us, p, 0, [], []⟩ :=
    ⟨hswapped, rfl, rfl, rfl, rfl, rfl⟩
  have hfollows := Step.follows_query hspell.leads hstart fun d' hd' => by
    have hprefixes : d'.prefixes = declared (front ++ m :: back) p := by
      rw [declared, hd']
    exact ⟨_, hprefixes ▸ hspell⟩
  have hreads := hplace.reads
  simp only [parse, hts] at hreads
  simp only [parse, hus]
  split at hreads
  · rename_i d' hd'
    cases hreads
    obtain ⟨_, e', he', rfl⟩ := hfollows _ _ hd'
    rw [he']
  · cases hreads
  · cases hreads

end Semlift.Query
