import Semlift.Proofs.Except
import Semlift.Proofs.Query.Total

/-!
Where the positions of patterns stem from. The readers of patterns are written once more, so that
they say of each position what it is written as: a constant, a variable, a label, or a bracket with
its place in the text. They read what the others read, and the positions of the patterns are those
that they name, with the brackets numbered in order of the text.
-/

namespace Semlift.Query

open Semlift.Rdf Semlift.Text

/-! ### Origins -/

/-- What a position of a pattern is written as. Brackets are told apart by their places. -/
inductive Origin where
  | constant (t : Term)
  | named (name : String)
  | labelled (label : String)
  | bracket (place : ℕ)
  deriving DecidableEq

/-- How many brackets begin an unnamed node in front of a place. -/
def opened (ts : List Token) (place : ℕ) : ℕ :=
  ts.countP fun t => t.opens && decide (t.offset < place)

/-- The position that is made of it, in a text of these tokens. -/
def Origin.node (ts : List Token) : Origin → Node
  | .constant t => .term t
  | .named name => .var name
  | .labelled label => blankVar label
  | .bracket place => blankVar (Number.natText (opened ts place))

/-- What stands between the marks of a pattern. -/
structure Statement where
  subject : Origin
  predicate : Origin
  object : Origin
  deriving DecidableEq

namespace Statement

def origins (s : Statement) : List Origin := [s.subject, s.predicate, s.object]

def pattern (ts : List Token) (s : Statement) : Pattern :=
  ⟨s.subject.node ts, s.predicate.node ts, s.object.node ts⟩

end Statement

/-- A node with what it is written as, and what stands in its brackets. -/
structure Traced where
  node : Node
  origin : Origin
  statements : List Statement

/-- A constant, or the variable of a predicate. -/
def Node.origin : Node → Origin
  | .term t => .constant t
  | .var name => .named name

/-! ### Readers that name origins -/

namespace Step

mutual

def tracedNode : (fuel : ℕ) → Step Traced
  | 0 => fail .tooDeep
  | n + 1 => do
    let t ← current
    match t.kind with
    | .var => advance; return ⟨.var t.text, .named t.text, []⟩
    | .blank => advance; return ⟨blankVar t.text, .labelled t.text, []⟩
    | .iri | .prefixed => let c ← iri; return ⟨.term c, .constant c, []⟩
    | .punct =>
      if t.text = "[" then tracedBracketed n
      else if t.text = "-" || t.text = "+" then
        let c ← constant
        return ⟨.term c, .constant c, []⟩
      else fail (.unexpectedInPattern t.text)
    | _ => let c ← constant; return ⟨.term c, .constant c, []⟩

def tracedBracketed : (fuel : ℕ) → Step Traced
  | 0 => fail .tooDeep
  | n + 1 => do
    let t ← current
    punct "["
    let x ← freshNode
    let ss ← if !(← atPunct "]") then tracedProperties n x (.bracket t.offset) else pure []
    punct "]"
    return ⟨x, .bracket t.offset, ss⟩

def tracedObjects : (fuel : ℕ) → (subject predicate : Node) → (s p : Origin) →
    Step (List Statement)
  | 0, _, _, _, _ => fail .tooDeep
  | n + 1, subject, predicate, s, p => do
    let x ← tracedNode n
    emit ⟨subject, predicate, x.node⟩
    let ss := x.statements ++ [⟨s, p, x.origin⟩]
    if ← atPunct "," then
      advance
      return ss ++ (← tracedObjects n subject predicate s p)
    else return ss

def tracedProperties : (fuel : ℕ) → (subject : Node) → (s : Origin) → Step (List Statement)
  | 0, _, _ => fail .tooDeep
  | n + 1, subject, s => do
    let predicate ← verb
    let ss ← tracedObjects n subject predicate s predicate.origin
    if ← atPunct ";" then
      semicolons
      if (← atPunct ".") || (← atPunct "\x7d") || (← atPunct "]") then return ss
      else return ss ++ (← tracedProperties n subject s)
    else return ss

end

def tracedTriples : Step (List Statement) := do
  let n ← fuel
  if ← atPunct "[" then
    let subject ← tracedBracketed n
    if (← atPunct ".") || (← atPunct "\x7d") then return subject.statements
    else return subject.statements ++ (← tracedProperties n subject.node subject.origin)
  else
    let subject ← tracedNode n
    return subject.statements ++ (← tracedProperties n subject.node subject.origin)

def tracedMember : Step (List Statement) := do
  let ss ←
    if ← atKeyword "FILTER" then
      advance
      let e ← primary (← fuel)
      modify fun d => { d with filters := d.filters ++ [e] }
      pure []
    else tracedTriples
  if ← atPunct "." then advance
  return ss

def tracedMembers : (fuel : ℕ) → Step (List Statement)
  | 0 => fail .tooDeep
  | n + 1 => do
    if ← atPunct "\x7d" then
      advance
      return []
    else if ← atKind .done then fail .openGroup
    else
      let ss ← tracedMember
      return ss ++ (← tracedMembers n)

def tracedGroup : Step (List Statement) := do
  punct "\x7b"
  tracedMembers ((← get).rest.length + 1)

end Step

/-- The patterns of a query as they are written. -/
def statements (text : String) (prefixes : Prefixes) : List Statement :=
  match tokens text with
  | .error _ => []
  | .ok ts =>
    match (do let _ ← Step.opening; Step.tracedGroup).run.run ⟨ts, prefixes, 0, [], []⟩ with
    | (.ok ss, _) => ss
    | (.error _, _) => []

/-! ### Places of tokens -/

variable {d e x : Draft} {ts us : List Token} {o : Origin} {ss : List Statement} {text : String}
  {prefixes : Prefixes}

lemma offset_le_of_tokensFrom {pass offset : ℕ} {cs : List Char}
    (h : tokensFrom pass offset cs = .ok ts) : ∀ t ∈ ts, offset ≤ t.offset := by
  fun_induction tokensFrom pass offset cs generalizing ts with
  | case1 =>
    cases h
    simp
  | case2 _ _ _ _ ih => exact fun t ht => Nat.le_trans (Nat.le_succ _) (ih h t ht)
  | case3 _ _ ih => exact fun t ht => Nat.le_trans (Nat.le_succ _) (ih h t ht)
  | case4 _ _ _ _ _ ih => exact fun t ht => Nat.le_trans (Nat.le_succ _) (ih h t ht)
  | case5 => cases h
  | case6 offset c cs _ _ kind text n _ ih =>
    obtain ⟨us, hus, rfl⟩ := map_eq_ok.1 h
    rintro t (_ | ⟨_, ht⟩)
    · exact Nat.le_refl _
    · exact Nat.le_trans (Nat.le_succ _) (ih hus t ht)

/-- Tokens stand one after another. -/
def Ordered (ts : List Token) : Prop := ts.Pairwise fun t u => t.offset < u.offset

lemma ordered_of_tokensFrom {pass offset : ℕ} {cs : List Char}
    (h : tokensFrom pass offset cs = .ok ts) : Ordered ts := by
  fun_induction tokensFrom pass offset cs generalizing ts with
  | case1 =>
    cases h
    exact List.pairwise_singleton _ _
  | case2 _ _ _ _ ih => exact ih h
  | case3 _ _ ih => exact ih h
  | case4 _ _ _ _ _ ih => exact ih h
  | case5 => cases h
  | case6 offset c cs _ _ kind text n _ ih =>
    obtain ⟨us, hus, rfl⟩ := map_eq_ok.1 h
    exact List.pairwise_cons.2 ⟨fun u hu => offset_le_of_tokensFrom hus u hu, ih hus⟩

/-- So many brackets are opened in front of a token as there are among the tokens before it. -/
lemma opened_of_append {t : Token} {vs : List Token} (hts : Ordered (us ++ t :: vs)) :
    opened (us ++ t :: vs) t.offset = us.countP Token.opens := by
  rw [Ordered, List.pairwise_append, List.pairwise_cons] at hts
  obtain ⟨-, ⟨hafter, -⟩, hbefore⟩ := hts
  have hus : us.countP (fun u => u.opens && decide (u.offset < t.offset)) =
      us.countP Token.opens := by
    refine List.countP_congr fun u hu => ?_
    simp [hbefore u hu t (by simp)]
  have hvs : (t :: vs).countP (fun u => u.opens && decide (u.offset < t.offset)) = 0 := by
    refine List.countP_eq_zero.2 fun u hu => ?_
    rcases List.mem_cons.1 hu with rfl | hu
    · simp
    · simp [Nat.le_of_lt (hafter u hu)]
  rw [opened, List.countP_append, hus, hvs, Nat.add_zero]

/-- A bracket stands where it is said to stand. -/
def Origin.Placed (ts : List Token) : Origin → Prop
  | .bracket place => ∃ t ∈ ts, t.opens = true ∧ t.offset = place
  | _ => True

/-- Brackets are numbered apart. -/
lemma opened_injective {p q : ℕ} (hp : (Origin.bracket p).Placed ts)
    (hq : (Origin.bracket q).Placed ts) (h : opened ts p = opened ts q) : p = q := by
  have hlt {p q : ℕ} (hp : (Origin.bracket p).Placed ts) (hpq : p < q) :
      opened ts p < opened ts q := by
    obtain ⟨t, ht, hopens, rfl⟩ := hp
    obtain ⟨us, vs, rfl⟩ := List.append_of_mem ht
    have hmono (l : List Token) : opened l t.offset ≤ opened l q := by
      refine List.countP_mono_left fun u _ hu => ?_
      simp only [Bool.and_eq_true, decide_eq_true_eq] at hu ⊢
      exact ⟨hu.1, Nat.lt_trans hu.2 hpq⟩
    have hus := hmono us
    have hvs := hmono vs
    -- the bracket itself counts for the later place only
    simp only [opened, List.countP_append, List.countP_cons, hopens, Nat.lt_irrefl, hpq,
      decide_true, decide_false, Bool.and_true, Bool.and_false] at hus hvs ⊢
    simp only [if_true, Bool.false_eq_true, if_false]
    omega
  rcases Nat.lt_trichotomy p q with hpq | hpq | hpq
  · exact absurd h (Nat.ne_of_lt (hlt hp hpq))
  · exact hpq
  · exact absurd h.symm (Nat.ne_of_lt (hlt hq hpq))

/-! ### Patterns with their origins -/

/-- The position is what is made of the origin, which stands in the text. -/
structure Stems (ts : List Token) (o : Origin) (a : Node) : Prop where
  node : o.node ts = a
  placed : o.Placed ts

/-- Some tokens have been used up, and the brackets among them are numbered. -/
def Counted (ts : List Token) (d : Draft) : Prop :=
  ∃ us, ts = us ++ d.rest ∧ d.nextBlank = us.countP Token.opens

/-- From one draft to the other, the patterns of some statements were added. -/
structure Adds (ts : List Token) (d e : Draft) (ss : List Statement) : Prop where
  counted : Counted ts e
  patterns : e.patterns = d.patterns ++ ss.map (Statement.pattern ts)
  placed : ∀ s ∈ ss, ∀ o ∈ s.origins, o.Placed ts

lemma Counted.skips (h : Counted ts d) (h' : Skips d e) : Counted ts e := by
  obtain ⟨us, hts, hn⟩ := h
  obtain ⟨vs, hvs, hopen⟩ := h'.used
  have hnone : vs.countP Token.opens = 0 := List.countP_eq_zero.2 (by simpa using hopen)
  exact ⟨us ++ vs, by rw [hts, hvs, List.append_assoc],
    by rw [h'.nextBlank, hn, List.countP_append, hnone, Nat.add_zero]⟩

lemma Counted.adds (h : Counted ts d) (h' : Skips d e) : Adds ts d e [] :=
  ⟨h.skips h', by simp [h'.patterns], by simp⟩

lemma Adds.trans {ss' : List Statement} (h : Adds ts d e ss) (h' : Adds ts e x ss') :
    Adds ts d x (ss ++ ss') := by
  refine ⟨h'.counted, by rw [h'.patterns, h.patterns, List.map_append, List.append_assoc], ?_⟩
  simp only [List.mem_append]
  rintro s (hs | hs)
  · exact h.placed s hs
  · exact h'.placed s hs

lemma Adds.skips (h : Adds ts d e ss) (h' : Skips e x) : Adds ts d x ss := by
  simpa using h.trans (h.counted.adds h')

lemma Adds.emit {o q r : Origin} {a b c : Node} (h : Adds ts d e ss) (ha : Stems ts o a)
    (hb : Stems ts q b) (hc : Stems ts r c) :
    Adds ts d { e with patterns := e.patterns ++ [⟨a, b, c⟩] } (ss ++ [⟨o, q, r⟩]) := by
  refine ⟨h.counted, ?_, ?_⟩
  · simp [h.patterns, Statement.pattern, ha.node, hb.node, hc.node]
  · simp only [List.mem_append, List.mem_singleton]
    rintro s (hs | rfl)
    · exact h.placed s hs
    · simp [Statement.origins, ha.placed, hb.placed, hc.placed]

lemma Node.stems_origin {a : Node} : Stems ts a.origin a := by
  cases a <;> exact ⟨rfl, trivial⟩

namespace Step

variable {α β γ δ : Type} {y : Step α} {f : α → Step γ} {g : α → Step δ}
  {Q : α → Draft → Prop} {W : γ → Draft → δ → Draft → Prop} {p : String} {n : ℕ}
  {a b : Node} {q : Origin}

/-! ### Two readers -/

/-- Both readers begin with the same step. -/
lemma Ends.follows (h : Ends y d Q) (hf : ∀ a e, Q a e → Follows (f a) e (g a) e W) :
    Follows (y >>= f) d (y >>= g) d W := by
  unfold Follows Ends at *
  simp only [ExceptT.run_bind, StateT.run_bind]
  cases hy : y.run.run d with
  | mk r e =>
    rw [hy] at h
    cases r with
    | error stop => rintro _ _ ⟨⟩
    | ok a => exact hf a e h

/-- Both readers take the same branch. -/
lemma Test.both {T : Step Bool} {r : Word → Bool} {f : Bool → Step γ} {g : Bool → Step δ}
    (hT : Test T r) (ht : r d.head.word = true → Follows (f true) d (g true) d W)
    (hf : Follows (f false) d (g false) d W) : Follows (T >>= f) d (T >>= g) d W := by
  have h : Ends T d fun b e => e = d ∧ r d.head.word = b := by
    unfold Ends
    rw [hT.run]
    exact ⟨rfl, rfl⟩
  refine h.follows fun b e hb => ?_
  obtain ⟨rfl, hb⟩ := hb
  cases b with
  | true => exact ht hb
  | false => exact hf

lemma both_atPunct {f : Bool → Step γ} {g : Bool → Step δ}
    (ht : d.head.kind = .punct → d.head.text = p → Follows (f true) d (g true) d W)
    (hf : Follows (f false) d (g false) d W) :
    Follows (atPunct p >>= f) d (atPunct p >>= g) d W := by
  refine test_atPunct.both (fun h => ?_) hf
  simp only [Token.word, Bool.and_eq_true, beq_iff_eq] at h
  exact ht h.1 h.2

lemma both_punct {f : Unit → Step γ} {g : Unit → Step δ}
    (h : d.head.kind = .punct → d.head.text = p → Follows (f ()) (after d) (g ()) (after d) W) :
    Follows (punct p >>= f) d (punct p >>= g) d W := by
  have hp : Ends (punct p) d fun _ e => e = after d ∧ d.head.kind = .punct ∧ d.head.text = p :=
    ends_atPunct (fun hk ht => show after d = after d ∧ _ ∧ _ from ⟨rfl, hk, ht⟩)
      (ends_current (ends_fail (by simp)))
  refine hp.follows fun _ e he => ?_
  obtain ⟨rfl, hk, ht⟩ := he
  exact h hk ht

lemma both_advance {f : Unit → Step γ} {g : Unit → Step δ}
    (h : Follows (f ()) (after d) (g ()) (after d) W) :
    Follows (advance >>= f) d (advance >>= g) d W := h

/-- The second reader has a look at the token that the first one begins with. -/
lemma follows_current_right {z : Step γ} {g : Token → Step δ} (h : Follows z d (g d.head) d W) :
    Follows z d (current >>= g) d W := h

lemma both_modify {u : Draft → Draft} {f : Unit → Step γ} {g : Unit → Step δ}
    (h : Follows (f ()) (u d) (g ()) (u d) W) :
    Follows (modify u >>= f) d (modify u >>= g) d W := h

lemma both_emit {t : Pattern} {f : Unit → Step γ} {g : Unit → Step δ}
    (h : Follows (f ()) { d with patterns := d.patterns ++ [t] }
      (g ()) { d with patterns := d.patterns ++ [t] } W) :
    Follows (emit t >>= f) d (emit t >>= g) d W := h

lemma both_freshNode {f : Node → Step γ} {g : Node → Step δ}
    (h : Follows (f (blankVar (Number.natText d.nextBlank))) { d with nextBlank := d.nextBlank + 1 }
      (g (blankVar (Number.natText d.nextBlank))) { d with nextBlank := d.nextBlank + 1 } W) :
    Follows (freshNode >>= f) d (freshNode >>= g) d W := h

lemma both_semicolons {f : Unit → Step γ} {g : Unit → Step δ}
    (h : ∀ e, Skips d e → Follows (f ()) e (g ()) e W) :
    Follows (semicolons >>= f) d (semicolons >>= g) d W := h _ skips_semicolons

/-- A bracket gets the number that its place says. -/
lemma opens_bracket (hts : Ordered ts) (hc : Counted ts d) (hk : d.head.kind = .punct)
    (ht : d.head.text = "[") :
    Stems ts (.bracket d.head.offset) (blankVar (Number.natText d.nextBlank)) ∧
      Adds ts d { after d with nextBlank := d.nextBlank + 1 } [] := by
  have hopens : d.head.opens = true := by simp [Token.opens, hk, ht]
  obtain ⟨us, htokens, hn⟩ := hc
  obtain ⟨s, o, more, hd⟩ := eq_cons hk (by decide)
  have hrest : d.rest = d.head :: more := by rw [hd]; rfl
  have hafter : (after d).rest = more := by rw [hd]; rfl
  rw [hrest] at htokens
  refine ⟨⟨?_, ?_⟩, ⟨us ++ [d.head], ?_, ?_⟩, ?_, ?_⟩
  · rw [Origin.node, htokens, opened_of_append (htokens ▸ hts), hn]
  · exact ⟨d.head, by simp [htokens], hopens, rfl⟩
  · simp [htokens, hafter]
  · simp [hn, hopens]
  · simp [after]
  · simp

/-- Both readers have read the same, one of them with the origin. -/
structure Traces (ts : List Token) (d : Draft) (a : Node) (e : Draft) (b : Traced) (e' : Draft) :
    Prop where
  draft : e' = e
  node : b.node = a
  stems : Stems ts b.origin a
  adds : Adds ts d e b.statements

/-- Both readers have read the same, one of them with the origins. -/
structure Lists (ts : List Token) (d : Draft) (_ : Unit) (e : Draft) (ss : List Statement)
    (e' : Draft) : Prop where
  draft : e' = e
  adds : Adds ts d e ss

/-- Both readers go on behind a node. -/
lemma Follows.bindNode {y : Step Node} {z : Step Traced} {f : Node → Step γ} {g : Traced → Step δ}
    (h : Follows y d z d (Traces ts d))
    (hf : ∀ e o a ss, Stems ts o a → Adds ts d e ss → Follows (f a) e (g ⟨a, o, ss⟩) e W) :
    Follows (y >>= f) d (z >>= g) d W := by
  refine h.bind fun a e b e' hab => ?_
  obtain ⟨rfl, rfl, hstems, hadds⟩ := hab
  exact hf _ _ _ _ hstems hadds

/-- Both readers go on behind a list. -/
lemma Follows.bindList {y : Step Unit} {z : Step (List Statement)} {f : Unit → Step γ}
    {g : List Statement → Step δ} (h : Follows y d z d (Lists ts d))
    (hf : ∀ e ss, Adds ts d e ss → Follows (f ()) e (g ss) e W) :
    Follows (y >>= f) d (z >>= g) d W := by
  refine h.bind fun _ e ss e' hss => ?_
  obtain ⟨rfl, hadds⟩ := hss
  exact hf _ _ hadds

/-- What comes behind adds its own patterns. -/
lemma Follows.andThen {e : Draft} {y : Step Unit} {z : Step (List Statement)}
    (h' : Follows y e z e (Lists ts e)) (h : Adds ts d e ss) :
    Follows y e (do return ss ++ (← z)) e (Lists ts d) := by
  rw [← bind_pure y]
  exact h'.bindList fun _ _ h' => follows_pure ⟨rfl, h.trans h'⟩

/-- What the readers of nodes do that call each other. -/
structure Tracing (ts : List Token) (n : ℕ) : Prop where
  node : ∀ d, Counted ts d → Follows (node n) d (tracedNode n) d (Traces ts d)
  bracketed : ∀ d, Counted ts d → Follows (bracketed n) d (tracedBracketed n) d (Traces ts d)
  objects : ∀ d a b o q, Stems ts o a → Stems ts q b → Counted ts d →
    Follows (objects n a b) d (tracedObjects n a b o q) d (Lists ts d)
  properties : ∀ d a o, Stems ts o a → Counted ts d →
    Follows (properties n a) d (tracedProperties n a o) d (Lists ts d)

lemma traces_pure (hc : Counted ts d) (h : Skips d e) (ho : Stems ts o a) :
    Follows (pure a) e (pure ⟨a, o, []⟩) e (Traces ts d) :=
  follows_pure ⟨rfl, rfl, ho, hc.adds h⟩

lemma Tracing.node_succ (ih : Tracing ts n) (hc : Counted ts d) :
    Follows (Step.node (n + 1)) d (tracedNode (n + 1)) d (Traces ts d) := by
  have hterm {y : Step Term} (h : Ends y d fun _ e => Uses d e) :
      Follows (do return .term (← y)) d (do let c ← y; return ⟨.term c, .constant c, []⟩) d
        (Traces ts d) :=
    h.follows fun c e h => traces_pure hc h.skips ⟨rfl, trivial⟩
  have hnamed : Stems ts (.named d.head.text) (.var d.head.text) := ⟨rfl, trivial⟩
  have hlabelled : Stems ts (.labelled d.head.text) (blankVar d.head.text) := ⟨rfl, trivial⟩
  rw [Step.node, tracedNode]
  refine follows_current ?_
  cases hk : d.head.kind with
  | var => exact both_advance (traces_pure hc (uses_word hk (by decide) (by decide)).skips hnamed)
  | blank =>
    exact both_advance (traces_pure hc (uses_word hk (by decide) (by decide)).skips hlabelled)
  | iri => exact hterm ends_iri
  | prefixed => exact hterm ends_iri
  | punct =>
    dsimp only
    split_ifs
    · exact ih.bracketed d hc
    · exact hterm ends_constant
    · exact follows_fail
  | _ => exact hterm ends_constant

lemma Tracing.bracketed_succ (hts : Ordered ts) (ih : Tracing ts n) (hc : Counted ts d) :
    Follows (Step.bracketed (n + 1)) d (tracedBracketed (n + 1)) d (Traces ts d) := by
  have hclose {e : Draft} {o : Origin} {a : Node} {ss : List Statement} (ho : Stems ts o a)
      (h : Adds ts d e ss) :
      Follows (do punct "]"; return a) e (do punct "]"; return ⟨a, o, ss⟩) e (Traces ts d) :=
    both_punct fun hk ht => follows_pure
      ⟨rfl, rfl, ho, h.skips (uses_punct hk ht (by decide)).skips⟩
  rw [Step.bracketed, tracedBracketed]
  refine follows_current_right (both_punct fun hk ht => both_freshNode ?_)
  obtain ⟨ho, h⟩ := opens_bracket hts hc hk ht
  refine both_atPunct (fun _ _ => hclose ho h) ?_
  exact (ih.properties _ _ _ ho h.counted).bindList fun _ _ h' => hclose ho (h.trans h')

lemma Tracing.objects_succ (ih : Tracing ts n) (ha : Stems ts o a) (hb : Stems ts q b)
    (hc : Counted ts d) :
    Follows (Step.objects (n + 1) a b) d (tracedObjects (n + 1) a b o q) d (Lists ts d) := by
  rw [Step.objects, tracedObjects]
  refine (ih.node d hc).bindNode fun e r x ss hx h => both_emit ?_
  have h' := h.emit ha hb hx
  refine both_atPunct (fun hk ht => both_advance ?_) (follows_pure ⟨rfl, h'⟩)
  have h' := h'.skips (uses_punct hk ht (by decide)).skips
  exact (ih.objects _ _ _ _ _ ha hb h'.counted).andThen h'

lemma Tracing.properties_succ (ih : Tracing ts n) (ha : Stems ts o a) (hc : Counted ts d) :
    Follows (Step.properties (n + 1) a) d (tracedProperties (n + 1) a o) d (Lists ts d) := by
  rw [Step.properties, tracedProperties]
  refine ends_verb.follows fun b e h₁ => ?_
  have h₁ := hc.adds h₁.skips
  refine (ih.objects _ _ _ _ _ ha Node.stems_origin h₁.counted).bindList fun x ss h₂ => ?_
  have h₂ := h₁.trans h₂
  refine both_atPunct (fun _ _ => both_semicolons fun e he => ?_) (follows_pure ⟨rfl, h₂⟩)
  have h₃ := h₂.skips he
  -- after the semicolons the properties may be over in three ways
  refine both_atPunct (fun _ _ => ?_) (both_atPunct (fun _ _ => ?_) (both_atPunct ?_ ?_))
  · exact follows_pure ⟨rfl, h₃⟩
  · exact follows_pure ⟨rfl, h₃⟩
  · exact fun _ _ => follows_pure ⟨rfl, h₃⟩
  · exact (ih.properties _ _ _ ha h₃.counted).andThen h₃

/-- The readers call each other with less fuel. -/
lemma tracing (hts : Ordered ts) (n : ℕ) : Tracing ts n := by
  induction n with
  | zero =>
    exact ⟨fun _ _ => follows_fail, fun _ _ => follows_fail, fun _ _ _ _ _ _ _ _ => follows_fail,
      fun _ _ _ _ _ => follows_fail⟩
  | succ n ih =>
    exact ⟨fun _ hc => ih.node_succ hc, fun _ hc => ih.bracketed_succ hts hc,
      fun _ _ _ _ _ ha hb hc => ih.objects_succ ha hb hc,
      fun _ _ _ ha hc => ih.properties_succ ha hc⟩

/-! ### Groups -/

lemma lists_triples (hts : Ordered ts) (hc : Counted ts d) :
    Follows triples d tracedTriples d (Lists ts d) := by
  have h := tracing hts (8 * d.rest.length + 8)
  refine follows_get (both_atPunct (fun _ _ => ?_) ?_)
  · refine (h.bracketed d hc).bindNode fun e o a ss ho h₁ => ?_
    refine both_atPunct (fun _ _ => ?_) (both_atPunct (fun _ _ => ?_) ?_)
    · exact follows_pure ⟨rfl, h₁⟩
    · exact follows_pure ⟨rfl, h₁⟩
    · exact (h.properties _ _ _ ho h₁.counted).andThen h₁
  · exact (h.node d hc).bindNode fun e o a ss ho h₁ =>
      (h.properties _ _ _ ho h₁.counted).andThen h₁

lemma lists_member (hts : Ordered ts) (hc : Counted ts d) :
    Follows member d tracedMember d (Lists ts d) := by
  have hpoint {e : Draft} {ss : List Statement} (h : Adds ts d e ss) :
      Follows (do if ← atPunct "." then advance) e
        (do if ← atPunct "." then advance
            return ss) e (Lists ts d) := by
    refine both_atPunct (fun hk ht => ?_) (follows_pure ⟨rfl, h⟩)
    exact follows_pure ⟨rfl, h.skips (uses_punct hk ht (by decide)).skips⟩
  refine test_atKeyword.both (fun hword => both_advance (follows_get ?_)) ?_
  · simp only [Token.word, Bool.and_eq_true, beq_iff_eq] at hword
    have h₁ : Uses d (after d) := uses_word hword.1 (by decide) (by decide)
    refine ((expressions _).primary _ (by omega)).follows fun e x h₂ => ?_
    obtain ⟨hused, hblank, hpatterns⟩ := (h₁.trans h₂).skips
    have h₃ : Skips d { x with filters := x.filters ++ [e] } := ⟨hused, hblank, hpatterns⟩
    exact both_modify (hpoint (hc.adds h₃))
  · exact (lists_triples hts hc).bindList fun _ _ h => hpoint h

lemma lists_members (hts : Ordered ts) (hc : Counted ts d) :
    Follows (members n) d (tracedMembers n) d (Lists ts d) := by
  induction n generalizing d with
  | zero => exact follows_fail
  | succ n ih =>
    rw [members, tracedMembers]
    refine both_atPunct (fun hk ht => ?_) ((test_atKind rfl).both (fun _ => follows_fail) ?_)
    · exact follows_pure ⟨rfl, hc.adds (uses_punct hk ht (by decide)).skips⟩
    · exact (lists_member hts hc).bindList fun _ _ h => (ih h.counted).andThen h

lemma lists_group (hts : Ordered ts) (hc : Counted ts d) :
    Follows group d tracedGroup d (Lists ts d) := by
  refine both_punct fun hk ht => follows_get ?_
  have h := hc.adds (uses_punct hk ht (by decide)).skips
  exact (lists_members hts h.counted).weaken fun _ _ _ _ h' => ⟨h'.draft, h.trans h'.adds⟩

end Step

end Semlift.Query
