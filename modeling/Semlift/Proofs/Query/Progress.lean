import Semlift.Proofs.Query.Replace

/-!
How far a step of reading goes. A step that ends with a result has used up tokens from the front,
and a step that ends without one does so for a fault of the text: the fuel lasts as long as it is
eight times the number of tokens, and no step but the reading of a count finds a number too large.
Here are single tokens, constants and filters.
-/

namespace Semlift.Query

open Semlift.Rdf Semlift.Text

variable {d e x : Draft}

/-! ### Tokens used up -/

/-- A bracket that begins an unnamed node. -/
def Token.opens (t : Token) : Bool := t.kind == .punct && t.text == "["

/-- A draft with some more tokens used up, none of which begins an unnamed node, and nothing else
read of the patterns. -/
structure Skips (d e : Draft) : Prop where
  used : ∃ us, d.rest = us ++ e.rest ∧ ∀ u ∈ us, u.opens = false
  nextBlank : e.nextBlank = d.nextBlank
  patterns : e.patterns = d.patterns

/-- At least one token was used up. -/
def Shorter (d e : Draft) : Prop := e.rest.length < d.rest.length

/-- Some tokens were used up, and none of them begins an unnamed node. -/
structure Uses (d e : Draft) : Prop where
  skips : Skips d e
  shorter : Shorter d e

lemma Skips.refl : Skips d d := ⟨⟨[], rfl, by simp⟩, rfl, rfl⟩

lemma Skips.trans (h : Skips d e) (h' : Skips e x) : Skips d x := by
  obtain ⟨us, hus, hopen⟩ := h.used
  obtain ⟨vs, hvs, hopen'⟩ := h'.used
  refine ⟨⟨us ++ vs, by rw [hus, hvs, List.append_assoc], ?_⟩,
    h'.nextBlank.trans h.nextBlank, h'.patterns.trans h.patterns⟩
  simp only [List.mem_append]
  rintro u (hu | hu)
  · exact hopen u hu
  · exact hopen' u hu

lemma Skips.length_le (h : Skips d e) : e.rest.length ≤ d.rest.length := by
  obtain ⟨us, hus, -⟩ := h.used
  simp [hus]

/-- Fuel that lasts for some tokens lasts for eight more calls once one of them is used up. -/
lemma Shorter.lasts {n m : Nat} (h : Shorter d e) (hn : 8 * d.rest.length ≤ n) (hm : m ≤ 8) :
    8 * e.rest.length + m ≤ n := by
  unfold Shorter at h
  omega

lemma Uses.trans (h : Uses d e) (h' : Uses e x) : Uses d x :=
  ⟨h.skips.trans h'.skips, Nat.lt_trans h'.shorter h.shorter⟩

lemma Uses.then (h : Uses d e) (h' : Skips e x) : Uses d x :=
  ⟨h.skips.trans h', Nat.lt_of_le_of_lt h'.length_le h.shorter⟩

lemma Skips.then (h : Skips d e) (h' : Uses e x) : Uses d x :=
  ⟨h.trans h'.skips, Nat.lt_of_lt_of_le h'.shorter h.length_le⟩

namespace Step

variable {α β : Type} {y : Step α} {f : α → Step β} {Q : α → Draft → Prop} {R : β → Draft → Prop}
  {p : String} {k : TokenKind} {n : Nat}

lemma skips_after (h : d.head.opens = false) : Skips d (after d) := by
  obtain ⟨ts, _, _, _, _⟩ := d
  cases ts with
  | nil => exact ⟨⟨[], rfl, by simp⟩, rfl, rfl⟩
  | cons u ts =>
    by_cases hu : u.kind = .done
    · exact ⟨⟨[], by simp [after, hu], by simp⟩, rfl, rfl⟩
    · exact ⟨⟨[u], by simp [after, hu], by simpa [Draft.head] using h⟩, rfl, rfl⟩

/-- Going past tokens of a kind that begins no unnamed node. -/
lemma skips_dropWhile {f : Token → Bool} (hf : ∀ t, f t = true → t.opens = false) :
    Skips d { d with rest := d.rest.dropWhile f } := by
  refine ⟨⟨_, List.takeWhile_append_dropWhile.symm, fun u hu => hf u ?_⟩, rfl, rfl⟩
  exact List.all_eq_true.1 List.all_takeWhile u hu

/-- Going past a token that is neither a mark nor the end. -/
lemma uses_word (hk : d.head.kind = k) (hpunct : k ≠ .punct) (hdone : k ≠ .done) :
    Uses d (after d) :=
  ⟨skips_after (by simp [Token.opens, hk, hpunct]), after_length_lt hk hdone⟩

/-- Going past a mark. -/
lemma uses_punct (hk : d.head.kind = .punct) (ht : d.head.text = p) (hp : p ≠ "[") :
    Uses d (after d) :=
  ⟨skips_after (by simp [Token.opens, ht, hp]), after_length_lt hk (by decide)⟩

/-! ### Steps that end -/

/-- A stop that the text is to blame for. -/
def Fair : Stop → Prop
  | .fault f => f ≠ .tooDeep
  | .countTooLarge => False

/-- The step ends with a result and a draft that are as described, or with a fault of the text. -/
def Ends (y : Step α) (d : Draft) (Q : α → Draft → Prop) : Prop :=
  match y.run.run d with
  | (.ok a, e) => Q a e
  | (.error stop, _) => Fair stop

lemma ends_pure {a : α} (h : Q a d) : Ends (pure a) d Q := h

lemma ends_fail {fault : Fault} (h : fault ≠ .tooDeep) : Ends (fail fault : Step α) d Q := h

lemma ends_fail_bind {fault : Fault} (h : fault ≠ .tooDeep) : Ends (fail fault >>= f) d R := h

lemma ends_get {f : Draft → Step β} (h : Ends (f d) d R) : Ends (get >>= f) d R := h

lemma ends_modify {g : Draft → Draft} {f : Unit → Step β} (h : Ends (f ()) (g d) R) :
    Ends (modify g >>= f) d R := h

lemma ends_current {f : Token → Step β} (h : Ends (f d.head) d R) : Ends (current >>= f) d R := h

lemma ends_advance {f : Unit → Step β} (h : Ends (f ()) (after d) R) :
    Ends (advance >>= f) d R := h

lemma ends_take {f : String → Step β} (h : Ends (f d.head.text) (after d) R) :
    Ends (take >>= f) d R := h

lemma Ends.weaken {Q' : α → Draft → Prop} (h : Ends y d Q) (hQ : ∀ a e, Q a e → Q' a e) :
    Ends y d Q' := by
  unfold Ends at *
  split at h
  · exact hQ _ _ h
  · exact h

lemma Ends.bind (h : Ends y d Q) (hf : ∀ a e, Q a e → Ends (f a) e R) : Ends (y >>= f) d R := by
  unfold Ends at *
  rw [ExceptT.run_bind, StateT.run_bind]
  cases hy : y.run.run d with
  | mk r e =>
    rw [hy] at h
    cases r with
    | error stop => exact h
    | ok a => exact hf a e h

/-- A test of the current token. -/
lemma ends_atPunct {f : Bool → Step β}
    (ht : d.head.kind = .punct → d.head.text = p → Ends (f true) d R)
    (hf : Ends (f false) d R) : Ends (atPunct p >>= f) d R := by
  have hrun : Ends (atPunct p >>= f) d R ↔
      Ends (f (d.head.kind == .punct && d.head.text == p)) d R := Iff.rfl
  rw [hrun]
  cases h : d.head.kind == .punct && d.head.text == p with
  | true =>
    rw [Bool.and_eq_true, beq_iff_eq, beq_iff_eq] at h
    exact ht h.1 h.2
  | false => exact hf

lemma ends_atKeyword {f : Bool → Step β}
    (ht : d.head.kind = .word → upper d.head.text = p → Ends (f true) d R)
    (hf : Ends (f false) d R) : Ends (atKeyword p >>= f) d R := by
  have hrun : Ends (atKeyword p >>= f) d R ↔
      Ends (f (d.head.kind == .word && upper d.head.text == p)) d R := Iff.rfl
  rw [hrun]
  cases h : d.head.kind == .word && upper d.head.text == p with
  | true =>
    rw [Bool.and_eq_true, beq_iff_eq, beq_iff_eq] at h
    exact ht h.1 h.2
  | false => exact hf

lemma ends_atKind {f : Bool → Step β} (ht : d.head.kind = k → Ends (f true) d R)
    (hf : d.head.kind ≠ k → Ends (f false) d R) : Ends (atKind k >>= f) d R := by
  have hrun : Ends (atKind k >>= f) d R ↔ Ends (f (d.head.kind == k)) d R := Iff.rfl
  rw [hrun]
  cases h : d.head.kind == k with
  | true => exact ht (beq_iff_eq.1 h)
  | false => exact hf (fun hk => by simp [hk] at h)

/-- A mark that must stand here. -/
lemma ends_punct {f : Unit → Step β}
    (h : d.head.kind = .punct → d.head.text = p → Ends (f ()) (after d) R) :
    Ends (punct p >>= f) d R := by
  refine Ends.bind (Q := fun _ e => Ends (f ()) e R) ?_ fun _ _ h => h
  exact ends_atPunct h (ends_current (ends_fail (by simp)))

lemma ends_keyword {f : Unit → Step β}
    (h : d.head.kind = .word → Ends (f ()) (after d) R) : Ends (keyword p >>= f) d R := by
  refine Ends.bind (Q := fun _ e => Ends (f ()) e R) ?_ fun _ _ h => h
  exact ends_atKeyword (fun hk _ => h hk) (ends_current (ends_fail (by simp)))

/-! ### Constants -/

lemma ends_iri : Ends Step.iri d fun _ e => Uses d e := by
  refine ends_current ?_
  split
  · rename_i hk
    exact ends_advance (ends_pure (uses_word hk (by decide) (by decide)))
  · rename_i hk
    refine ends_get ?_
    split
    · exact ends_advance (ends_pure (uses_word hk (by decide) (by decide)))
    · exact ends_fail (by simp)
  · exact ends_fail (by simp)

lemma ends_sign : Ends sign d fun _ e => Skips d e := by
  refine ends_atPunct (fun hk ht => ?_) (ends_atPunct (fun hk ht => ?_) (ends_pure Skips.refl))
  · exact ends_advance (ends_pure (uses_punct hk ht (by decide)).skips)
  · exact ends_advance (ends_pure (uses_punct hk ht (by decide)).skips)

lemma ends_tagged {s : String} : Ends (tagged s) d fun _ e => Skips d e := by
  refine ends_atPunct (fun hk ht => ?_) (ends_atPunct (fun hk ht => ?_) (ends_pure Skips.refl))
  · refine ends_advance (ends_atKind (fun hword => ?_) fun _ => ends_fail (by simp))
    have htag := uses_word hword (by decide) (by decide)
    exact ends_take (ends_pure ((uses_punct hk ht (by decide)).trans htag).skips)
  · refine ends_advance (ends_iri.bind fun _ _ h => ends_pure ?_)
    exact ((uses_punct hk ht (by decide)).trans h).skips

lemma ends_constant : Ends constant d fun _ e => Uses d e := by
  refine ends_sign.bind fun s e h => ends_current ?_
  split
  · rename_i hk
    refine ends_advance ((ends_tagged (s := e.head.text)).weaken fun _ _ h' => ?_)
    exact (h.then (uses_word hk (by decide) (by decide))).then h'
  · rename_i hk
    exact ends_advance (ends_pure (h.then (uses_word hk (by decide) (by decide))))
  · rename_i hk
    exact ends_advance (ends_pure (h.then (uses_word hk (by decide) (by decide))))
  · rename_i hk
    exact ends_advance (ends_pure (h.then (uses_word hk (by decide) (by decide))))
  · rename_i hk
    split
    · exact ends_advance (ends_pure (h.then (uses_word hk (by decide) (by decide))))
    · exact ends_fail (by simp)
  · exact ends_fail (by simp)

lemma ends_verb : Ends verb d fun _ e => Uses d e := by
  refine ends_current ?_
  split
  · rename_i h
    simp only [Bool.and_eq_true, decide_eq_true_eq] at h
    exact ends_advance (ends_pure (uses_word h.1 (by decide) (by decide)))
  split
  · rename_i hk
    exact ends_advance (ends_pure (uses_word hk (by decide) (by decide)))
  · exact ends_iri.bind fun _ _ h => ends_pure h

/-! ### Filters -/

lemma ends_function (hk : d.head.kind = .word) : Ends function d fun _ e => Uses d e := by
  refine ends_take ?_
  dsimp only
  split
  · exact ends_pure (uses_word hk (by decide) (by decide))
  · exact ends_fail (by simp)

/-- How many calls lie between an expression of a level and the next token. -/
def Level.depth : Level → Nat
  | .unary => 2
  | .product => 3
  | .sum => 4
  | .relation => 5
  | .conjunction => 6
  | .disjunction => 7

lemma Level.depth_tighter {l : Level} (h : l ≠ .unary) : l.depth = l.tighter.depth + 1 := by
  cases l <;> first | rfl | exact absurd rfl h

lemma Level.depth_le {l : Level} : l.depth ≤ 7 := by cases l <;> decide

/-- What the four readers of filters that call each other do with enough fuel. -/
structure Expressions (n : Nat) : Prop where
  expression : ∀ l d, 8 * d.rest.length + Level.depth l ≤ n →
    Ends (expression n l) d fun _ e => Uses d e
  chain : ∀ l so d, 8 * d.rest.length + 1 ≤ n → Ends (chain n l so) d fun _ e => Skips d e
  primary : ∀ d, 8 * d.rest.length + 1 ≤ n → Ends (primary n) d fun _ e => Uses d e
  arguments : ∀ d, 8 * d.rest.length + 8 ≤ n → Ends (arguments n) d fun _ e => Uses d e

lemma Expressions.unary_succ (ih : Expressions n) (h : 8 * d.rest.length + 2 ≤ n + 1) :
    Ends (Step.expression (n + 1) .unary) d fun _ e => Uses d e := by
  have hoperand {e : Draft} {f : Filter → Filter} (h' : Uses d e) :
      Ends (do return f (← Step.expression n .unary)) e fun _ e => Uses d e :=
    (ih.expression .unary e (h'.shorter.lasts (by omega) (by decide))).bind
      fun _ _ h => ends_pure (h'.trans h)
  rw [Step.expression]
  refine ends_atPunct (fun hk ht => ?_) (ends_atPunct (fun hk ht => ?_) ?_)
  · exact ends_advance (hoperand (uses_punct hk ht (by decide)))
  · exact ends_advance (hoperand (uses_punct hk ht (by decide)))
  · refine ends_atPunct (fun hk ht => ends_advance ?_) (ih.primary d (by omega))
    have h' := uses_punct hk ht (by decide)
    exact (ih.primary _ (h'.shorter.lasts (by omega) (by decide))).weaken fun _ _ h => h'.trans h

lemma Expressions.expression_succ {l : Level} (ih : Expressions n)
    (h : 8 * d.rest.length + Level.depth l ≤ n + 1) :
    Ends (Step.expression (n + 1) l) d fun _ e => Uses d e := by
  by_cases hl : l = .unary
  · subst hl
    exact ih.unary_succ h
  · have hdepth := Level.depth_tighter hl
    rw [Step.expression]
    · refine (ih.expression l.tighter d (by omega)).bind fun so e h' => ?_
      exact (ih.chain l so e (h'.shorter.lasts (by omega) (by decide))).weaken
        fun _ _ h => h'.then h
    · exact hl

lemma ne_bracket_of_operator? {l : Level} {s : String} {op : Filter → Filter → Filter}
    (h : l.operator? s = some op) : s ≠ "[" := by
  rintro rfl
  cases l <;> simp [Level.operator?] at h

lemma Expressions.chain_succ {l : Level} {so : Filter} (ih : Expressions n)
    (h : 8 * d.rest.length + 1 ≤ n + 1) :
    Ends (Step.chain (n + 1) l so) d fun _ e => Skips d e := by
  rw [Step.chain]
  refine ends_current ?_
  split
  · exact ends_pure Skips.refl
  · rename_i op hop
    split_ifs at hop with hk
    have h₁ := uses_punct hk rfl (ne_bracket_of_operator? hop)
    have hdepth : l.tighter.depth ≤ 8 := Nat.le_succ_of_le Level.depth_le
    refine ends_advance ((ih.expression _ _ (h₁.shorter.lasts (by omega) hdepth)).bind ?_)
    intro next x h₂
    have h₂ := h₁.trans h₂
    split
    · exact (ih.chain l _ x (h₂.shorter.lasts (by omega) (by decide))).weaken
        fun _ _ h => h₂.skips.trans h
    · exact ends_pure h₂.skips

lemma Expressions.primary_succ (ih : Expressions n) (h : 8 * d.rest.length + 1 ≤ n + 1) :
    Ends (Step.primary (n + 1)) d fun _ e => Uses d e := by
  have hclose {e : Draft} {a : Filter} (h' : Uses d e) :
      Ends (do punct ")"; return a) e fun _ e => Uses d e :=
    ends_punct fun hk ht => ends_pure (h'.trans (uses_punct hk ht (by decide)))
  rw [Step.primary]
  refine ends_current (ends_atPunct (fun hk ht => ends_advance ?_) ?_)
  · have h₁ := uses_punct hk ht (by decide)
    exact (ih.expression .disjunction _ (h₁.shorter.lasts (by omega) (by decide))).bind
      fun _ _ h₂ => hclose (h₁.trans h₂)
  · rw [if_neg Bool.false_ne_true]
    split
    · rename_i hk
      exact ends_advance (ends_pure (uses_word hk (by decide) (by decide)))
    split
    · exact ends_iri.bind fun _ _ h => ends_pure h
    split
    · rename_i hk
      simp only [Bool.and_eq_true, decide_eq_true_eq] at hk
      refine (ends_function hk.1.1).bind fun f e h₁ => ends_punct fun hk ht => ?_
      have h₂ := h₁.trans (uses_punct hk ht (by decide))
      refine ends_atPunct (fun _ _ => hclose h₂) ?_
      exact (ih.arguments _ (h₂.shorter.lasts (by omega) (by decide))).bind
        fun args x h₃ => hclose (h₂.trans h₃)
    · exact ends_constant.bind fun _ _ h => ends_pure h

lemma Expressions.arguments_succ (ih : Expressions n) (h : 8 * d.rest.length + 8 ≤ n + 1) :
    Ends (Step.arguments (n + 1)) d fun _ e => Uses d e := by
  rw [Step.arguments]
  refine (ih.expression .disjunction d (by simp only [Level.depth]; omega)).bind fun a e h₁ => ?_
  refine ends_atPunct (fun hk ht => ends_advance ?_) (ends_pure h₁)
  have h₂ := h₁.trans (uses_punct hk ht (by decide))
  exact (ih.arguments _ (h₂.shorter.lasts (by omega) (by decide))).bind
    fun more _ h₃ => ends_pure (h₂.trans h₃)

/-- The readers call each other with less fuel, and between two tokens at most eight times. -/
lemma expressions (n : Nat) : Expressions n := by
  induction n with
  | zero =>
    exact ⟨fun l d h => absurd h (by cases l <;> simp [Level.depth]),
      fun _ _ _ h => absurd h (by simp), fun _ h => absurd h (by simp),
      fun _ h => absurd h (by simp)⟩
  | succ n ih =>
    exact ⟨fun _ _ h => ih.expression_succ h, fun _ _ _ h => ih.chain_succ h,
      fun _ h => ih.primary_succ h, fun _ h => ih.arguments_succ h⟩

end Step

end Semlift.Query
