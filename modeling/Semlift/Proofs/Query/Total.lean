import Semlift.Proofs.Query.Progress

/-!
Reading a query always comes to an end of its own: the fuel of every loop and every production
lasts, whatever the tokens, so a text is read as a query or refused for a fault of its own. One
thing is not a fault: a limit or an offset that does not fit into 64 bits, where one may stand
behind what can be read as a query.
-/

namespace Semlift.Query

open Semlift.Rdf Semlift.Text

variable {d e x : Draft} {text : String} {prefixes : Prefixes}

lemma Shorter.trans (h : Shorter d e) (h' : Shorter e x) : Shorter d x := Nat.lt_trans h' h

lemma Shorter.then_le (h : Shorter d e) (h' : x.rest.length ≤ e.rest.length) : Shorter d x :=
  Nat.lt_of_le_of_lt h' h

namespace Step

variable {α β : Type} {f : α → Step β} {R : β → Draft → Prop} {p : String} {k : TokenKind}
  {n : Nat} {s o : Node}

/-! ### Nodes -/

lemma shorter_after (hk : d.head.kind = k) (hne : k ≠ .done) : Shorter d (after d) :=
  after_length_lt hk hne

lemma ends_freshNode {f : Node → Step β}
    (h : Ends (f (blankVar (Number.natText d.nextBlank)))
      { d with nextBlank := d.nextBlank + 1 } R) :
    Ends (freshNode >>= f) d R := h

lemma skips_semicolons :
    Skips d { d with rest := d.rest.dropWhile fun t => t.kind == .punct && t.text == ";" } := by
  refine skips_dropWhile fun t ht => ?_
  simp only [Bool.and_eq_true, beq_iff_eq] at ht
  simp [Token.opens, ht.2]

lemma ends_semicolons {f : Unit → Step β} (h : ∀ e, Skips d e → Ends (f ()) e R) :
    Ends (semicolons >>= f) d R := ends_modify (h _ skips_semicolons)

/-- What the four readers of nodes that call each other do with enough fuel. -/
structure Properties (n : Nat) : Prop where
  node : ∀ d, 8 * d.rest.length + 2 ≤ n → Ends (node n) d fun _ e => Shorter d e
  bracketed : ∀ d, 8 * d.rest.length + 1 ≤ n → Ends (bracketed n) d fun _ e => Shorter d e
  objects : ∀ s p d, 8 * d.rest.length + 3 ≤ n → Ends (objects n s p) d fun _ e => Shorter d e
  properties : ∀ s d, 8 * d.rest.length + 1 ≤ n → Ends (properties n s) d fun _ e => Shorter d e

lemma Properties.node_succ (ih : Properties n) (h : 8 * d.rest.length + 2 ≤ n + 1) :
    Ends (Step.node (n + 1)) d fun _ e => Shorter d e := by
  have hconst : Ends (do return .term (← constant)) d fun (_ : Node) e => Shorter d e :=
    ends_constant.bind fun _ _ h => ends_pure h.shorter
  have hiri : Ends (do return .term (← Step.iri)) d fun (_ : Node) e => Shorter d e :=
    ends_iri.bind fun _ _ h => ends_pure h.shorter
  rw [Step.node]
  refine ends_current ?_
  split
  · rename_i hk
    exact ends_advance (ends_pure (shorter_after hk (by decide)))
  · rename_i hk
    exact ends_advance (ends_pure (shorter_after hk (by decide)))
  · exact hiri
  · exact hiri
  · split_ifs
    · exact ih.bracketed d (by omega)
    · exact hconst
    · exact ends_fail (by simp)
  · exact hconst

lemma Properties.bracketed_succ (ih : Properties n) (h : 8 * d.rest.length + 1 ≤ n + 1) :
    Ends (Step.bracketed (n + 1)) d fun _ e => Shorter d e := by
  have hclose {e : Draft} {a : Node} (h : Shorter d e) :
      Ends (do punct "]"; return a) e fun _ e => Shorter d e :=
    ends_punct fun hk _ => ends_pure (h.trans (shorter_after hk (by decide)))
  rw [Step.bracketed]
  refine ends_punct fun hk _ => ends_freshNode ?_
  have h₁ : Shorter d { after d with nextBlank := (after d).nextBlank + 1 } :=
    shorter_after hk (by decide)
  refine ends_atPunct (fun _ _ => hclose h₁) ?_
  exact (ih.properties _ _ (h₁.lasts (by omega) (by decide))).bind
    fun _ _ h₂ => hclose (h₁.trans h₂)

lemma Properties.objects_succ (ih : Properties n) (h : 8 * d.rest.length + 3 ≤ n + 1) :
    Ends (Step.objects (n + 1) s o) d fun _ e => Shorter d e := by
  rw [Step.objects]
  refine (ih.node d (by omega)).bind fun a e h₁ => ends_modify ?_
  refine ends_atPunct (fun hk _ => ends_advance ?_) (ends_pure h₁)
  have h₂ : Shorter d (after { e with patterns := e.patterns ++ [⟨s, o, a⟩] }) :=
    h₁.trans (shorter_after (d := { e with patterns := e.patterns ++ [⟨s, o, a⟩] }) hk (by decide))
  exact (ih.objects _ _ _ (h₂.lasts (by omega) (by decide))).weaken fun _ _ h => h₂.trans h

lemma Properties.properties_succ (ih : Properties n) (h : 8 * d.rest.length + 1 ≤ n + 1) :
    Ends (Step.properties (n + 1) s) d fun _ e => Shorter d e := by
  rw [Step.properties]
  refine ends_verb.bind fun p e h₁ => ?_
  refine (ih.objects _ _ _ (h₁.shorter.lasts (by omega) (by decide))).bind fun _ x h₂ => ?_
  have h₂ := h₁.shorter.trans h₂
  refine ends_atPunct (fun _ _ => ends_semicolons fun x' hx => ?_) (ends_pure h₂)
  have h₃ := h₂.then_le hx.length_le
  have hmore : Ends (Step.properties n s) x' fun _ e => Shorter d e :=
    (ih.properties _ _ (h₃.lasts (by omega) (by decide))).weaken fun _ _ h => h₃.trans h
  -- after the semicolons the properties may be over in three ways
  refine ends_atPunct (fun _ _ => ?_) (ends_atPunct (fun _ _ => ?_) (ends_atPunct ?_ hmore))
  · exact ends_pure h₃
  · exact ends_pure h₃
  · exact fun _ _ => ends_pure h₃

/-- The readers call each other with less fuel, and between two tokens at most eight times. -/
lemma enough (n : Nat) : Properties n := by
  induction n with
  | zero =>
    exact ⟨fun _ h => absurd h (by simp), fun _ h => absurd h (by simp),
      fun _ _ _ h => absurd h (by simp), fun _ _ h => absurd h (by simp)⟩
  | succ n ih =>
    exact ⟨fun _ h => ih.node_succ h, fun _ h => ih.bracketed_succ h,
      fun _ _ _ h => ih.objects_succ h, fun _ _ h => ih.properties_succ h⟩

/-! ### Groups -/

lemma ends_triples : Ends triples d fun _ e => Shorter d e := by
  have h := enough (8 * d.rest.length + 8)
  refine ends_get (ends_atPunct (fun _ _ => ?_) ?_)
  · refine (h.bracketed d (by omega)).bind fun subject e h₁ => ?_
    have hmore : Ends (Step.properties (8 * d.rest.length + 8) subject) e fun _ e => Shorter d e :=
      (h.properties _ _ (h₁.lasts (by omega) (by decide))).weaken fun _ _ h => h₁.trans h
    refine ends_atPunct (fun _ _ => ends_pure h₁) (ends_atPunct (fun _ _ => ?_) hmore)
    exact ends_pure h₁
  · refine (h.node d (by omega)).bind fun subject e h₁ => ?_
    exact (h.properties _ _ (h₁.lasts (by omega) (by decide))).weaken fun _ _ h => h₁.trans h

lemma ends_member : Ends member d fun _ e => Shorter d e := by
  have hpoint {e : Draft} (h : Shorter d e) :
      Ends (do if ← atPunct "." then advance) e fun _ e => Shorter d e :=
    ends_atPunct (fun hk _ => h.trans (shorter_after hk (by decide))) (ends_pure h)
  refine ends_atKeyword (fun hk _ => ends_advance (ends_get ?_)) ?_
  · have h₁ : Shorter d (after d) := shorter_after hk (by decide)
    refine ((expressions _).primary _ (by omega)).bind fun e x h₂ => ends_modify ?_
    exact hpoint (e := { x with filters := x.filters ++ [e] }) (h₁.trans h₂.shorter)
  · exact ends_triples.bind fun _ _ h => hpoint h

lemma ends_members (h : d.rest.length < n) : Ends (members n) d fun _ e => Shorter d e := by
  induction n generalizing d with
  | zero => exact absurd h (Nat.not_lt_zero _)
  | succ n ih =>
    rw [members]
    refine ends_atPunct (fun hk _ => shorter_after hk (by decide)) ?_
    refine ends_atKind (fun _ => ends_fail (by simp)) fun _ => ?_
    refine ends_member.bind fun _ e h₁ => ?_
    have hlt : e.rest.length < n := Nat.lt_of_lt_of_le h₁ (Nat.le_of_lt_succ h)
    exact (ih hlt).weaken fun _ _ h₂ => h₁.trans h₂

lemma ends_group : Ends group d fun _ e => Shorter d e := by
  refine ends_punct fun hk _ => ends_get ?_
  have h₁ : Shorter d (after d) := shorter_after hk (by decide)
  exact (ends_members (Nat.lt_succ_self _)).weaken fun _ _ h₂ => h₁.trans h₂

/-! ### What stands in front of the group -/

lemma ends_prologue : Ends (prologue n) d fun _ e => Skips d e := by
  induction n generalizing d with
  | zero => exact ends_pure Skips.refl
  | succ n ih =>
    rw [prologue_succ]
    refine ends_atKeyword (fun hk _ => ends_advance (ends_current ?_)) (ends_pure Skips.refl)
    have h₁ := uses_word hk (by decide) (by decide)
    dsimp only
    split
    · exact ends_fail_bind (by simp)
    · rename_i hname
      simp only [Bool.or_eq_true, decide_eq_true_eq, not_or, Decidable.not_not] at hname
      refine ends_advance (ends_atKind (fun hiri => ?_) fun _ => ends_fail_bind (by simp))
      have h₂ := (h₁.trans (uses_word hname.1 (by decide) (by decide))).trans
        (uses_word hiri (by decide) (by decide))
      refine ends_take (ends_modify (ih.weaken fun _ _ h₃ => ?_))
      exact h₂.skips.trans ⟨h₃.used, h₃.nextBlank, h₃.patterns⟩

lemma ends_columnNames : Ends columnNames d fun _ e => Skips d e := by
  refine ends_get (ends_modify (ends_pure (skips_dropWhile fun t ht => ?_)))
  simp [Token.opens, beq_iff_eq.1 ht]

lemma ends_projection : Ends projection d fun _ e => Skips d e := by
  refine ends_atPunct (fun hk ht => ?_) (ends_columnNames.bind fun names e h => ?_)
  · exact ends_advance (ends_pure (uses_punct hk ht (by decide)).skips)
  · dsimp only
    split
    · exact ends_fail_bind (by simp)
    · exact ends_pure h

/-! ### What stands behind the group -/

lemma ends_orderKeys : Ends (orderKeys n) d fun _ e => Skips d e := by
  induction n generalizing d with
  | zero => exact ends_pure Skips.refl
  | succ n ih =>
    rw [orderKeys_succ]
    refine ends_atKind (fun hvar => ends_take ?_) fun _ => ?_
    · exact ih.bind fun _ _ h => ends_pure ((uses_word hvar (by decide) (by decide)).skips.trans h)
    · have hdirected (hk : d.head.kind = .word) :
          Ends (directed (orderKeys n)) d fun _ e => Skips d e := by
        have h₁ := uses_word hk (by decide) (by decide)
        have hrest {descending : Bool} : Ends (do
            advance
            punct "("
            if !(← atKind .var) then fail .noOrderVariable
            let name ← take
            punct ")"
            return ⟨name, descending⟩ :: (← orderKeys n)) d fun _ e => Skips d e := by
          refine ends_advance (ends_punct fun hk ht => ?_)
          have h₂ := h₁.trans (uses_punct hk ht (by decide))
          refine ends_atKind (fun hvar => ?_) fun _ => ends_fail_bind (by simp)
          have h₃ := h₂.trans (uses_word hvar (by decide) (by decide))
          refine ends_take (ends_punct fun hk ht => ?_)
          have h₄ := h₃.trans (uses_punct hk ht (by decide))
          exact ih.bind fun _ _ h => ends_pure (h₄.skips.trans h)
        exact ends_atKeyword (fun _ _ => hrest) hrest
      refine ends_atKeyword (fun hk _ => ?_) (ends_atKeyword (fun hk _ => ?_) ?_)
      · exact ends_atKeyword (fun _ _ => hdirected hk) (hdirected hk)
      · exact hdirected hk
      · exact ends_pure Skips.refl

lemma ends_order : Ends order d fun _ e => Skips d e := by
  refine ends_atKeyword (fun hk _ => ends_advance ?_) (ends_pure Skips.refl)
  refine ends_keyword fun hby => ends_get (ends_orderKeys.bind fun keys e h => ?_)
  have h₁ := (uses_word hk (by decide) (by decide)).trans (uses_word hby (by decide) (by decide))
  dsimp only
  split
  · exact ends_fail_bind (by simp)
  · exact ends_pure (h₁.skips.trans h)

/-! ### The parts of a query -/

/-- A query up to its group. -/
def opening : Step (Bool × Projection) := do
  prologue (← get).rest.length
  keyword "SELECT"
  let distinct ← atKeyword "DISTINCT"
  if distinct then advance
  let shown ← projection
  if ← atKeyword "WHERE" then advance
  return (distinct, shown)

/-- A query up to its limit and offset. -/
def body : Step ((Bool × Projection) × List OrderKey) := do
  let r ← opening
  group
  return (r, ← order)

/-- The limit and the offset of a query, which ends with them. -/
def bounds (distinct : Bool) (shown : Projection) (keys : List OrderKey) : Step Select := do
  let (limit, offset) ← bound (← bound (none, none))
  if !(← atKind .done) then fail (.afterQuery (← current).text)
  let d ← get
  return ⟨distinct, shown, d.patterns, d.filters, keys, limit, offset⟩

lemma query_eq_opening : query = opening >>= fun r => selected r.1 r.2 := by
  have hprojected (distinct : Bool) :
      projected distinct = (do
        let shown ← projection
        if ← atKeyword "WHERE" then advance
        return (distinct, shown)) >>= fun r => selected r.1 r.2 := by
    unfold projected
    simp only [bind_assoc]
    refine bind_congr fun shown => bind_congr fun word => ?_
    cases word <;> rfl
  unfold opening
  simp only [bind_assoc]
  refine bind_congr fun d => bind_congr fun _ => bind_congr fun _ => bind_congr fun distinct => ?_
  cases distinct
  · exact hprojected false
  · exact congrArg (advance >>= fun _ => ·) (hprojected true)

lemma query_eq_body : query = body >>= fun r => bounds r.1.1 r.1.2 r.2 := by
  rw [query_eq_opening, body]
  simp only [bind_assoc, pure_bind]
  rfl

lemma ends_opening : Ends opening d fun _ e => Skips d e := by
  refine ends_get (ends_prologue.bind fun _ e h₁ => ends_keyword fun hk => ?_)
  have h₂ := h₁.trans (uses_word hk (by decide) (by decide)).skips
  have hwhere {distinct : Bool} {e : Draft} (h : Skips d e) : Ends (do
      let shown ← projection
      if ← atKeyword "WHERE" then advance
      return (distinct, shown)) e fun _ e => Skips d e := by
    refine ends_projection.bind fun shown x h' => ?_
    refine ends_atKeyword (fun hk _ => ends_advance (ends_pure ?_)) (ends_pure (h.trans h'))
    exact (h.trans h').trans (uses_word hk (by decide) (by decide)).skips
  refine ends_atKeyword (fun hk _ => ?_) (hwhere h₂)
  exact ends_advance (hwhere (h₂.trans (uses_word hk (by decide) (by decide)).skips))

lemma ends_body : Ends body d fun _ _ => True :=
  ends_opening.bind fun _ _ _ => ends_group.bind fun _ _ _ => ends_order.bind fun _ _ _ =>
    ends_pure trivial

/-! ### Counts that are too large -/

/-- The word in front of a limit or an offset. -/
def isBoundWord (t : Token) : Bool :=
  t.kind == .word && (upper t.text == "LIMIT" || upper t.text == "OFFSET")

/-- A limit or an offset stands here, with a count behind it. -/
structure Counts (d : Draft) : Prop where
  word : isBoundWord d.head = true
  integer : (after d).head.kind = .integer

/-- The number that a token of digits spells. -/
def Token.count (t : Token) : Nat := digitsValue t.text.toList

/-- How the reading of a limit or an offset ends. -/
inductive Bounding (cuts : Option Nat × Option Nat) (d : Draft) :
    Except Stop (Option Nat × Option Nat) × Draft → Prop where
  | none (h : isBoundWord d.head = false) : Bounding cuts d (.ok cuts, d)
  | noCount {e : Draft} (h : (after d).head.kind ≠ .integer) :
      Bounding cuts d (.error (.fault .noCount), e)
  | small {cuts' : Option Nat × Option Nat} (h : Counts d)
      (hn : Token.count (after d).head < UInt64.size) :
      Bounding cuts d (.ok cuts', after (after d))
  | large {e : Draft} (h : Counts d) (hn : UInt64.size ≤ Token.count (after d).head) :
      Bounding cuts d (.error .countTooLarge, e)

lemma run_count (d : Draft) : count.run.run d =
    if d.head.kind = .integer then
      if Token.count d.head < UInt64.size then (.ok (Token.count d.head), after d)
      else (.error .countTooLarge, after d)
    else (.error (.fault .noCount), d) := by
  by_cases hk : d.head.kind = .integer
  · have hrun : count.run.run d =
        (if Token.count d.head < UInt64.size then (pure (Token.count d.head) : Step Nat)
          else throw .countTooLarge).run.run (after d) := by
      have htest : (atKind .integer).run.run d = (.ok true, d) := by
        rw [← beq_iff_eq.2 hk]
        rfl
      unfold count
      rw [ExceptT.run_bind, StateT.run_bind, htest]
      rfl
    rw [hrun, if_pos hk]
    split <;> rfl
  · have htest : (atKind .integer).run.run d = (.ok false, d) := by
      rw [← beq_eq_false_iff_ne.2 hk]
      rfl
    unfold count
    rw [ExceptT.run_bind, StateT.run_bind, htest, if_neg hk]
    rfl

/-- Both words go on alike, but for which of the two bounds is set. -/
lemma bounding_of_word {cuts : Option Nat × Option Nat} {set : Nat → Option Nat × Option Nat}
    (h : isBoundWord d.head = true) :
    Bounding cuts d ((do advance; return set (← count)).run.run d) := by
  have hrun : (do advance; return set (← count)).run.run d =
      match count.run.run (after d) with
      | (.ok n, e) => (.ok (set n), e)
      | (.error stop, e) => (.error stop, e) := by
    show (count >>= fun n => pure (set n)).run.run (after d) = _
    rw [ExceptT.run_bind, StateT.run_bind]
    rcases count.run.run (after d) with ⟨_ | _, _⟩ <;> rfl
  rw [hrun, run_count]
  by_cases hk : (after d).head.kind = .integer
  · rw [if_pos hk]
    by_cases hn : Token.count (after d).head < UInt64.size
    · rw [if_pos hn]
      exact .small ⟨h, hk⟩ hn
    · rw [if_neg hn]
      exact .large ⟨h, hk⟩ (Nat.le_of_not_lt hn)
  · rw [if_neg hk]
    exact .noCount hk

lemma bounding (cuts : Option Nat × Option Nat) (d : Draft) :
    Bounding cuts d ((bound cuts).run.run d) := by
  have hrun : (bound cuts).run.run d =
      (if d.head.kind == .word && upper d.head.text == "LIMIT" then
        (do advance; return (some (← count), cuts.2) : Step (Option Nat × Option Nat))
      else if d.head.kind == .word && upper d.head.text == "OFFSET" then
        (do advance; return (cuts.1, some (← count)))
      else return cuts).run.run d := by
    have htest {p : String} {f : Bool → Step (Option Nat × Option Nat)} :
        (atKeyword p >>= f).run.run d =
        (f (d.head.kind == .word && upper d.head.text == p)).run.run d := rfl
    unfold bound
    rw [htest]
    cases d.head.kind == .word && upper d.head.text == "LIMIT" with
    | true => rfl
    | false => exact htest
  rw [hrun]
  split_ifs with hl ho
  · refine bounding_of_word ?_
    simp only [Bool.and_eq_true] at hl
    simp [isBoundWord, hl]
  · refine bounding_of_word ?_
    simp only [Bool.and_eq_true] at ho
    simp [isBoundWord, ho]
  · exact .none (by simp_all [isBoundWord])

lemma rest_of_counts (h : Counts d) :
    d.rest = d.head :: (after d).head :: (after (after d)).rest := by
  have hword : d.head.kind = .word := by
    have := h.word
    simp only [isBoundWord, Bool.and_eq_true, beq_iff_eq] at this
    exact this.1
  have hinteger := h.integer
  obtain ⟨s, o, us, hd⟩ := eq_cons hword (by decide)
  rw [hd] at hinteger ⊢
  obtain ⟨s', o', vs, hvs⟩ := eq_cons hinteger (by decide)
  have hus : us = ⟨.integer, s', o'⟩ :: vs := congrArg Draft.rest hvs
  subst hus
  simp [after, Draft.head]

end Step

open Step

/-- A limit or an offset stands here with a count that takes more than 64 bits. -/
def TooLarge (ts : List Token) : Prop :=
  ∃ t u more, ts = t :: u :: more ∧ isBoundWord t = true ∧ u.kind = .integer ∧
    UInt64.size ≤ Token.count u

/-- Of the limit and the offset that stand here one has a count that takes more than 64 bits. -/
def Overflows (ts : List Token) : Prop :=
  TooLarge ts ∨ ∃ t u more, ts = t :: u :: more ∧ isBoundWord t = true ∧ u.kind = .integer ∧
    TooLarge more

namespace Step

lemma heads_of_rest {t u : Token} {more : List Token} (hd : d.rest = t :: u :: more)
    (ht : isBoundWord t = true) (hu : u.kind = .integer) :
    d.head = t ∧ (after d).head = u ∧ (after (after d)).rest = more := by
  obtain ⟨ts, _, _, _, _⟩ := d
  obtain rfl : ts = t :: u :: more := hd
  have hkind : t.kind ≠ .done := by
    intro h
    simp [isBoundWord, h] at ht
  simp [after, Draft.head, hkind, hu]

lemma tooLarge_iff : TooLarge d.rest ↔ Counts d ∧ UInt64.size ≤ Token.count (after d).head := by
  constructor
  · rintro ⟨t, u, more, hd, ht, hu, hn⟩
    obtain ⟨rfl, rfl, -⟩ := heads_of_rest hd ht hu
    exact ⟨⟨ht, hu⟩, hn⟩
  · rintro ⟨h, hn⟩
    exact ⟨_, _, _, rest_of_counts h, h.word, h.integer, hn⟩

lemma overflows_iff : Overflows d.rest ↔
    TooLarge d.rest ∨ Counts d ∧ TooLarge (after (after d)).rest := by
  refine or_congr_right ⟨?_, ?_⟩
  · rintro ⟨t, u, more, hd, ht, hu, hmore⟩
    obtain ⟨rfl, rfl, rfl⟩ := heads_of_rest hd ht hu
    exact ⟨⟨ht, hu⟩, hmore⟩
  · rintro ⟨h, hmore⟩
    exact ⟨_, _, _, rest_of_counts h, h.word, h.integer, hmore⟩

/-- The step ends without a result, for this reason. -/
def Stops (stop : Stop) (y : Step α) (d : Draft) : Prop := ∃ e, y.run.run d = (.error stop, e)

lemma Ends.not_stops {stop : Stop} {y : Step α} {Q : α → Draft → Prop} (h : Ends y d Q)
    (hstop : ¬ Fair stop) : ¬ Stops stop y d := by
  rintro ⟨e, he⟩
  rw [Ends, he] at h
  exact hstop h

lemma stops_bind_iff {stop : Stop} {y : Step α} : Stops stop (y >>= f) d ↔
    Stops stop y d ∨ ∃ a e, y.run.run d = (.ok a, e) ∧ Stops stop (f a) e := by
  unfold Stops
  rw [ExceptT.run_bind, StateT.run_bind]
  cases hy : y.run.run d with
  | mk r e =>
    cases r with
    | error stop' =>
      refine Iff.trans ?_ (or_iff_left ?_).symm
      · constructor
        · rintro ⟨_, ⟨⟩⟩
          exact ⟨e, rfl⟩
        · rintro ⟨_, ⟨⟩⟩
          exact ⟨e, rfl⟩
      · rintro ⟨_, _, he, -⟩
        cases he
    | ok a =>
      refine Iff.trans ?_ (or_iff_right (by rintro ⟨_, he⟩; cases he)).symm
      exact ⟨fun h => ⟨a, e, rfl, h⟩, fun ⟨_, _, he, h⟩ => by cases he; exact h⟩

/-- What ends a query behind its limit and offset. -/
def finished (select : Draft → Select) : Step Select := do
  if !(← atKind .done) then fail (.afterQuery (← current).text)
  let d ← get
  return select d

lemma ends_finished {select : Draft → Select} : Ends (finished select) d fun _ _ => True :=
  ends_atKind (fun _ => ends_get (ends_pure trivial))
    fun _ => ends_current (ends_fail_bind (by simp))

variable {cuts : Option Nat × Option Nat} {distinct : Bool} {shown : Projection}
  {keys : List OrderKey}

lemma bounds_eq : bounds distinct shown keys =
    bound (none, none) >>= fun first => bound first >>= fun cuts =>
      finished fun d => ⟨distinct, shown, d.patterns, d.filters, keys, cuts.1, cuts.2⟩ := rfl

lemma exceeds_bound_iff : Stops .countTooLarge (bound cuts) d ↔ TooLarge d.rest := by
  rw [tooLarge_iff]
  unfold Stops
  have hb := bounding cuts d
  revert hb
  generalize (bound cuts).run.run d = r
  intro hb
  cases hb with
  | none h =>
    refine iff_of_false nofun fun hc => ?_
    simp [hc.1.word] at h
  | noCount h => exact iff_of_false nofun fun hc => h hc.1.integer
  | small h hn => exact iff_of_false nofun fun hc => absurd hn (Nat.not_lt.2 hc.2)
  | large h hn => exact iff_of_true ⟨_, rfl⟩ ⟨h, hn⟩

lemma exceeds_second_iff {select : Option Nat × Option Nat → Draft → Select} :
    Stops .countTooLarge (bound cuts >>= fun cuts => finished (select cuts)) d ↔
      TooLarge d.rest := by
  rw [stops_bind_iff, exceeds_bound_iff]
  refine or_iff_left ?_
  rintro ⟨cuts, e, -, h⟩
  exact ends_finished.not_stops id h

lemma exceeds_bounds_iff :
    Stops .countTooLarge (bounds distinct shown keys) d ↔ Overflows d.rest := by
  rw [bounds_eq, stops_bind_iff, exceeds_bound_iff, overflows_iff]
  refine or_congr_right' fun hlarge => ?_
  have hb := bounding (none, none) d
  constructor
  · rintro ⟨cuts, e, hrun, h⟩
    have hsecond := exceeds_second_iff.1 h
    rw [hrun] at hb
    cases hb with
    | none => exact absurd hsecond hlarge
    | small hc => exact ⟨hc, hsecond⟩
  · rintro ⟨hc, h⟩
    cases hrun : (bound (none, none)).run.run d with
    | mk r e =>
      rw [hrun] at hb
      cases hb with
      | none hw => simp [hc.word] at hw
      | noCount hk => exact absurd hc.integer hk
      | small => exact ⟨_, _, rfl, exceeds_second_iff.2 h⟩
      | large _ hn => exact absurd (tooLarge_iff.2 ⟨hc, hn⟩) hlarge

lemma exceeds_query_iff : Stops .countTooLarge query d ↔
    ∃ r e, body.run.run d = (.ok r, e) ∧ Overflows e.rest := by
  rw [query_eq_body, stops_bind_iff, or_iff_right (ends_body.not_stops id)]
  exact exists₂_congr fun r e => and_congr_right fun _ => exceeds_bounds_iff

/-- A count that is no number or too large is what a limit or an offset can stop at. -/
lemma not_deep_bound : ¬ Stops (.fault .tooDeep) (bound cuts) d := by
  rintro ⟨e, he⟩
  have hb := bounding cuts d
  rw [he] at hb
  cases hb

lemma not_deep_query : ¬ Stops (.fault .tooDeep) query d := by
  have hdeep : ¬ Fair (.fault .tooDeep) := fun h => h rfl
  rw [query_eq_body, stops_bind_iff, or_iff_right (ends_body.not_stops hdeep)]
  rintro ⟨r, e, -, h⟩
  rw [bounds_eq, stops_bind_iff, or_iff_right not_deep_bound] at h
  obtain ⟨cuts, x, -, h⟩ := h
  rw [stops_bind_iff, or_iff_right not_deep_bound] at h
  obtain ⟨cuts', x', -, h⟩ := h
  exact ends_finished.not_stops hdeep h

end Step

/-! ### Texts -/

/-- A text can be read as a query up to its limit and offset, and one of these has a count that
takes more than 64 bits. -/
def Overflowing (text : String) (prefixes : Prefixes) : Prop :=
  ∃ ts r e, tokens text = .ok ts ∧
    Step.body.run.run ⟨ts, prefixes, 0, [], []⟩ = (.ok r, e) ∧ Overflows e.rest

lemma operator_ne_tooDeep {c : Char} {cs : List Char} {m : Nat} :
    operator c cs ≠ .error (.tooDeep, m) := by
  unfold operator
  split
  · rintro ⟨⟩
  · split <;> rintro ⟨⟩

lemma tokenAt_ne_tooDeep {c : Char} {cs : List Char} {m : Nat} :
    tokenAt c cs ≠ .error (.tooDeep, m) := by
  unfold tokenAt
  dsimp only
  split
  · rintro ⟨⟩
  split
  · split <;> rintro ⟨⟩
  split
  · rintro ⟨⟩
  split
  · split <;> rintro ⟨⟩
  split
  · rintro ⟨⟩
  split
  · split <;> rintro ⟨⟩
  · exact operator_ne_tooDeep

lemma tokensFrom_ne_tooDeep {pass offset m : Nat} {cs : List Char} :
    tokensFrom pass offset cs ≠ .error (m, .tooDeep) := by
  fun_induction tokensFrom pass offset cs with
  | case1 => rintro ⟨⟩
  | case2 _ _ _ _ ih => exact ih
  | case3 _ _ ih => exact ih
  | case4 _ _ _ _ _ ih => exact ih
  | case5 offset c cs _ _ fault n htoken =>
    intro h
    cases h
    exact tokenAt_ne_tooDeep htoken
  | case6 offset c cs _ _ kind text n _ ih =>
    intro h
    cases hmore : tokensFrom (n - 1) (offset + 1) cs with
    | ok ts =>
      rw [hmore] at h
      cases h
    | error fault =>
      rw [hmore] at h
      cases h
      exact ih hmore

theorem parse_ne_tooDeep (place : Nat) :
    parse text prefixes ≠ .error (.fault place .tooDeep) := by
  intro h
  unfold parse at h
  split at h
  · rename_i htokens
    cases h
    exact tokensFrom_ne_tooDeep htokens
  · rename_i ts _
    split at h
    · cases h
    · rename_i hrun
      cases h
      exact Step.not_deep_query ⟨_, hrun⟩
    · cases h

theorem parse_eq_countTooLarge_iff :
    parse text prefixes = .error .countTooLarge ↔ Overflowing text prefixes := by
  unfold parse
  cases htokens : tokens text with
  | error fault =>
    refine iff_of_false nofun ?_
    rintro ⟨ts, r, e, hts, -⟩
    cases htokens.symm.trans hts
  | ok ts =>
    have hquery : Overflowing text prefixes ↔
        Step.Stops .countTooLarge Step.query ⟨ts, prefixes, 0, [], []⟩ := by
      rw [Step.exceeds_query_iff]
      constructor
      · rintro ⟨us, r, e, hus, hrun, ho⟩
        cases htokens.symm.trans hus
        exact ⟨r, e, hrun, ho⟩
      · rintro ⟨r, e, hrun, ho⟩
        exact ⟨ts, r, e, htokens, hrun, ho⟩
    rw [hquery, Step.Stops]
    dsimp only
    cases Step.query.run.run ⟨ts, prefixes, 0, [], []⟩ with
    | mk r e =>
      cases r with
      | ok q => exact iff_of_false nofun (by rintro ⟨_, ⟨⟩⟩)
      | error stop =>
        cases stop with
        | fault f => exact iff_of_false nofun (by rintro ⟨_, ⟨⟩⟩)
        | countTooLarge => exact iff_of_true rfl ⟨e, rfl⟩

end Semlift.Query
