import Semlift.Proofs.Rdf.Turtle.Cursor.Terms

/-!
Reading stays in the text. What is left gets shorter from call to call, so that the turns of loops
and nestings last, and the whole of a document or of a list of predicates and objects is read with a
place in the text as it is read from what is left.

Three turns for each character are enough. The list of properties calls the list of objects, and
both lists call the object, in front of the same text at most; an object goes deeper only after a
bracket, and a list goes on only after what it has read. So each cycle of calls takes a character.
-/

namespace Semlift.Rdf.Turtle

open Semlift.Text

variable {cs l v w : List Char} {s s' : Cursor} {c : Char} {k n : Nat}

namespace Scan

open Cursor (Before)

variable {α β : Type} {a : α} {x : Step α}

/-! ### Triples -/

lemma follows_emit {a b c : Term} (h : s.Before cs w) :
    Follows cs s (s.leaving w) (emit a b c) (Step.emit a b c) :=
  .gives runs_modify rfl ⟨h.pos, h.far, h.drop⟩

lemma follows_freshBlank (h : s.Before cs w) :
    Follows cs s (s.leaving w) freshBlank Step.freshBlank := by
  refine runs_get.follows (follows_of_gives Step.gives_get (runs_modify.follows ?_))
  exact .gives runs_pure rfl ⟨h.pos, h.far, h.drop⟩

lemma follows_freshBlanks {ts : List Term} (h : s.Before cs w) :
    Follows cs s (s.leaving w) (ts.mapM fun _ => freshBlank)
      (ts.mapM fun _ => Step.freshBlank) := by
  induction ts generalizing s w with
  | nil => exact follows_pure h
  | cons t ts ih =>
    rw [List.mapM_cons, List.mapM_cons]
    refine (follows_freshBlank h).bind fun _ _ _ h => (ih h).bind fun _ _ _ h => ?_
    exact follows_pure h

lemma follows_emitCells {cells : List (Term × Term)} (h : s.Before cs w) :
    Follows cs s (s.leaving w) (emitCells cells) (Step.emitCells cells) := by
  induction cells generalizing s w with
  | nil => exact follows_pure h
  | cons c more ih =>
    refine (follows_emit h).bind fun _ _ _ h => (follows_emit h).bind fun _ _ _ h => ?_
    exact ih h

lemma follows_collectionOf {ts : List Term} (h : s.Before cs w) :
    Follows cs s (s.leaving w) (collectionOf ts) (Step.collectionOf ts) :=
  (follows_freshBlanks h).bind fun _ _ _ h => (follows_emitCells h).bind fun _ _ _ h =>
    follows_pure h

/-- An opening bracket that is ahead. -/
lemma follows_open (h : s.Before cs w) (hc : at' w 0 = c) (hopens : Opens c) (hne : c ≠ '\x00') :
    Follows cs s (s.leaving w) (expect c) (Step.drop 1) := by
  obtain ⟨more, hmore⟩ := exists_cons_of_at' hc hne
  obtain rfl : w = c :: more := hmore
  exact .gives (runs_expect h hopens) rfl h.next

/-- What is left is shorter. -/
lemma length_of_gives (hu : Step.Goes (Step.Cuts k) x (s.leaving w))
    (hx : x.Gives (s.leaving w) a (s'.leaving v)) : v.length + k ≤ w.length :=
  (hu _ _ hx).length

lemma Follows.bind_cuts {y : Scan α} {f : α → Scan β} {g : α → Step β}
    (h : Follows cs s (s.leaving w) y x) (hcuts : Step.Goes (Step.Cuts k) x (s.leaving w))
    (hf : ∀ a s' v, s'.Before cs v → v.length + k ≤ w.length →
      Follows cs s' (s'.leaving v) (f a) (g a)) :
    Follows cs s (s.leaving w) (y >>= f) (x >>= g) :=
  h.bind_gives fun a s' v _ hx h' => hf a s' v h' (length_of_gives hcuts hx)

lemma cuts_drop_one (hc : at' w 0 = c) (hne : c ≠ '\x00') :
    Step.Goes (Step.Cuts 1) (Step.drop 1) (s.leaving w) :=
  Step.goes_modify (show Leaves 1 w (w.drop 1) from leaves_drop_one hc hne)

/-- Blanks that are skipped first make no difference. -/
lemma skipFrom_skipFrom {isGap : Char → Bool} (hgap : ∀ c, isBlank c = true → isGap c = true)
    {comment : Bool} : skipFrom isGap false (skipFrom isBlank comment w) =
      skipFrom isGap comment w := by
  induction w generalizing comment with
  | nil => cases comment <;> rfl
  | cons c w ih =>
    cases comment with
    | true => exact ih
    | false =>
      simp only [skipFrom]
      split_ifs with hhash hblank hc hc
      · exact ih
      · exact ih
      · exact absurd (hgap c hblank) hc
      · rw [skipFrom, if_neg hhash, if_pos hc]
      · rw [skipFrom, if_neg hhash, if_neg hc]

lemma follows_semicolonTurns (h : s.Before cs w) (hskip : skip w = w) (hn : w.length < n) :
    Follows cs s (s.leaving v) (semicolonTurns n) (Step.setRest (skipSemicolons w)) := by
  induction n generalizing s v w with
  | zero => exact absurd hn (Nat.not_lt_zero _)
  | succ n ih =>
    rw [semicolonTurns]
    refine (runs_ahead h).follows ?_
    split_ifs with hc
    · obtain ⟨more, hmore⟩ := exists_cons_of_at' (beq_iff_eq.1 hc) (by decide)
      obtain rfl : w = ';' :: more := hmore
      have hblanks : Follows cs (s.moved 1) ((s.moved 1).leaving more)
          (do blanks; semicolonTurns n)
          (do Step.blanks; Step.setRest (skipSemicolons more)) := by
        refine (follows_blanks h.next).bind_gives fun _ s' w' _ hx h' => ?_
        obtain rfl : skip more = w' := congrArg Progress.rest (Prod.mk.inj hx).2
        have hlength := length_of_gives Step.uses_blanks.toCuts hx
        rw [List.length_cons] at hn
        have hrest : skipSemicolons (skip more) = skipSemicolons more :=
          skipFrom_skipFrom fun c hc => by simp [hc]
        exact hrest ▸ ih h' skip_skip (by omega)
      exact runs_move.follows (hblanks.of_run rfl rfl)
    · have hsame : skipSemicolons w = w := by
        cases w with
        | nil => rfl
        | cons c w =>
          exact skipSemicolons_cons (opens_of_skipFrom hskip) fun h => hc (by rw [h]; rfl)
      rw [hsame]
      exact .gives runs_pure rfl h

/-- The four readers that call each other, with enough turns for what is left: one more for each
reader that can come before the next character is taken. -/
structure Following (cs : List Char) (n : Nat) : Prop where
  object : ∀ s w, s.Before cs w → 3 * w.length + 1 ≤ n →
    Follows cs s (s.leaving w) (object n) (Step.object n)
  items : ∀ s w, s.Before cs w → 3 * w.length + 2 ≤ n →
    Follows cs s (s.leaving w) (items n) (Step.items n)
  objects : ∀ a b s w, s.Before cs w → 3 * w.length + 2 ≤ n →
    Follows cs s (s.leaving w) (objects n a b) (Step.objects n a b)
  properties : ∀ a s w, s.Before cs w → 3 * w.length + 3 ≤ n →
    Follows cs s (s.leaving w) (properties n a) (Step.properties n a)

section Following

variable (ih : Following cs n)

include ih

lemma Following.object_succ (h : s.Before cs w) (hn : 3 * w.length + 1 ≤ n + 1) :
    Follows cs s (s.leaving w) (Scan.object (n + 1)) (Step.object (n + 1)) := by
  rw [Scan.object, Step.object]
  refine (follows_blanks h).bind_cuts Step.uses_blanks.toCuts
    fun _ s₁ w₁ h hlength₁ => follows_ahead h (follows_ahead h ?_)
  split_ifs with hbracket hparenthesis hlabel hquote hnumber
  · have hbracket := beq_iff_eq.1 hbracket
    have hopen := follows_open h hbracket ⟨by decide, by decide⟩ (by decide)
    refine hopen.bind_cuts (cuts_drop_one hbracket (by decide)) fun _ s₂ w₂ h hlength₂ => ?_
    refine (follows_freshBlank h).bind_cuts Step.cuts_freshBlank fun node s₃ w₃ h hlength₃ => ?_
    refine (follows_blanks h).bind_cuts Step.uses_blanks.toCuts
      fun _ s₄ w₄ h hlength₄ => follows_ahead h ?_
    have hclose {s : Cursor} {w : List Char} (h : s.Before cs w) : Follows cs s (s.leaving w)
        (do expect ']'; return node) (do Step.expect ']'; return node) :=
      (follows_expect h (by decide)).bind fun _ _ _ h => follows_pure h
    dsimp only
    split
    · exact (ih.properties node _ _ h (by omega)).bind fun _ _ _ h => hclose h
    · exact hclose h
  · have hparenthesis := beq_iff_eq.1 hparenthesis
    have hopen := follows_open h hparenthesis ⟨by decide, by decide⟩ (by decide)
    refine hopen.bind_cuts (cuts_drop_one hparenthesis (by decide)) fun _ s₂ w₂ h hlength₂ => ?_
    refine (follows_blanks h).bind_cuts Step.uses_blanks.toCuts fun _ s₃ w₃ h hlength₃ => ?_
    exact (ih.items _ _ h (by omega)).bind fun _ _ _ h => follows_collectionOf h
  · simp only [Bool.and_eq_true, beq_iff_eq] at hlabel
    exact follows_labelled h hlabel.2
  · refine follows_literal h fun hc => ?_
    rw [hc] at hquote
    exact absurd hquote (by decide)
  · exact follows_lex (follows_numeral h)
  · exact follows_truth h

lemma Following.items_succ (h : s.Before cs w) (hn : 3 * w.length + 2 ≤ n + 1) :
    Follows cs s (s.leaving w) (Scan.items (n + 1)) (Step.items (n + 1)) := by
  rw [Scan.items, Step.items]
  refine follows_ahead h ?_
  split_ifs with hclose
  · exact (follows_drop_one h (beq_iff_eq.1 hclose) (by decide)).bind
      fun _ _ _ h => follows_pure h
  · refine follows_atEnd h ?_
    split_ifs
    · exact follows_fail h (by simp)
    · refine (ih.object _ _ h (by omega)).bind_cuts ((Step.cutting n).object _)
        fun t s₁ w₁ h hlength₁ => ?_
      refine (follows_blanks h).bind_cuts Step.uses_blanks.toCuts fun _ s₂ w₂ h hlength₂ => ?_
      exact (ih.items _ _ h (by omega)).bind fun _ _ _ h => follows_pure h

lemma Following.objects_succ {a b : Term} (h : s.Before cs w) (hn : 3 * w.length + 2 ≤ n + 1) :
    Follows cs s (s.leaving w) (Scan.objects (n + 1) a b) (Step.objects (n + 1) a b) := by
  rw [Scan.objects, Step.objects]
  refine (ih.object _ _ h (by omega)).bind_cuts ((Step.cutting n).object _)
    fun t s₁ w₁ h hlength₁ => ?_
  refine (follows_emit h).bind_cuts Step.cuts_emit fun _ s₂ w₂ h hlength₂ => ?_
  refine (follows_blanks h).bind_cuts Step.uses_blanks.toCuts
    fun _ s₃ w₃ h hlength₃ => follows_ahead h ?_
  split_ifs with hcomma
  · have hcomma := beq_iff_eq.1 hcomma
    refine (follows_drop_one h hcomma (by decide)).bind_cuts (cuts_drop_one hcomma (by decide))
      fun _ s₄ w₄ h hlength₄ => ?_
    exact ih.objects a b _ _ h (by omega)
  · exact follows_pure h

lemma Following.properties_succ {a : Term} (h : s.Before cs w) (hn : 3 * w.length + 3 ≤ n + 1) :
    Follows cs s (s.leaving w) (Scan.properties (n + 1) a) (Step.properties (n + 1) a) := by
  rw [Scan.properties, Step.properties]
  refine (follows_verb h).bind_cuts Step.uses_verb.toCuts fun b s₁ w₁ h hlength₁ => ?_
  refine (ih.objects a b _ _ h (by omega)).bind_cuts ((Step.cutting n).objects a b _)
    fun _ s₂ w₂ h hlength₂ => ?_
  refine (follows_blanks h).bind_gives fun _ s₃ w₃ _ hx h => follows_ahead h ?_
  have hlength₃ := length_of_gives Step.uses_blanks.toCuts hx
  obtain rfl : skip w₂ = w₃ := congrArg Progress.rest (Prod.mk.inj hx).2
  split_ifs with hsemicolon
  · have hsemicolon := leaves_skipSemicolons (beq_iff_eq.1 hsemicolon)
    refine runs_turns.follows ?_
    have hpass : Follows cs s₃ (s₃.leaving (skip w₂)) (semicolonTurns (cs.length + 1))
        (modify fun p => { p with rest := skipSemicolons p.rest }) :=
      (follows_semicolonTurns (v := skip w₂) h skip_skip (lt_turns h)).of_run rfl rfl
    refine hpass.bind_gives fun _ s₄ w₄ _ hx h => ?_
    have hlength₄ : w₄.length + 1 ≤ (skip w₂).length := by
      obtain rfl : skipSemicolons (skip w₂) = w₄ := congrArg Progress.rest (Prod.mk.inj hx).2
      exact hsemicolon.length
    refine follows_ahead h ?_
    refine follows_atEnd h ?_
    split_ifs
    · exact follows_pure h
    · exact ih.properties a _ _ h (by omega)
  · exact follows_pure h

end Following

/-- The readers call each other with fewer turns only, so the induction is on the number of turns of
all four. -/
lemma following (cs : List Char) (n : Nat) : Following cs n := by
  induction n with
  | zero =>
    -- no number of turns is enough for a text
    constructor <;> (intros; omega)
  | succ n ih =>
    exact ⟨fun _ _ => ih.object_succ, fun _ _ => ih.items_succ, fun _ _ _ _ => ih.objects_succ,
      fun _ _ _ => ih.properties_succ⟩

/-- Both readers have the same number of turns for what is left. -/
lemma follows_fuel {f : Nat → Scan β} {g : Nat → Step β} (h : s.Before cs w)
    (hf : Follows cs s (s.leaving w) (f (3 * w.length + 3)) (g (3 * w.length + 3))) :
    Follows cs s (s.leaving w) (fuel >>= f) (Step.fuel >>= g) := by
  have hfuel : Runs cs s fuel (3 * w.length + 3) s := by
    rw [← h.drop, List.length_drop]
    rfl
  exact hfuel.follows (follows_of_gives Step.gives_fuel hf)

lemma follows_triples (h : s.Before cs w) :
    Follows cs s (s.leaving w) triples Step.triples := by
  refine (follows_blanks h).bind fun _ s₁ w₁ h => ?_
  refine follows_fuel h ?_
  refine follows_ahead h ?_
  have hn := following cs (3 * w₁.length + 3)
  have hname : Step.Goes (Step.Cuts 0) Step.name (s₁.leaving w₁) :=
    Step.uses_name.toCuts.weakenCuts (Nat.zero_le 1)
  have hobject : Step.Goes (Step.Cuts 0) (Step.object (3 * w₁.length + 3)) (s₁.leaving w₁) :=
    ((Step.cutting _).object _).weakenCuts (Nat.zero_le 1)
  split_ifs
  · refine (hn.object _ _ h (by omega)).bind_cuts hobject fun t s₂ w₂ h hlength₂ => ?_
    refine (follows_blanks h).bind_cuts Step.uses_blanks.toCuts fun _ s₃ w₃ h hlength₃ => ?_
    refine follows_ahead h ?_
    split_ifs
    · exact hn.properties t _ _ h (by omega)
    · exact follows_pure h
  · refine follows_ahead h ?_
    split_ifs
    · refine (hn.object _ _ h (by omega)).bind_cuts hobject fun t s₂ w₂ h hlength₂ => ?_
      exact hn.properties t _ _ h (by omega)
    · refine (follows_name h).bind_cuts hname fun t s₂ w₂ h hlength₂ => ?_
      exact hn.properties t _ _ h (by omega)

/-! ### Statements -/

lemma follows_declaration (h : s.Before cs w) :
    Follows cs s (s.leaving w) declaration Step.declaration := by
  refine (follows_blanks h).bind fun _ s₁ w₁ h => runs_place.follows ?_
  refine follows_prefixChars h (by simp) ?_ ?_
  · intro s' _ h hbefore
    refine runs_place.follows (hbefore.follows ?_)
    -- the end of the text is no colon
    exact ((follows_expect h (by decide)).bind_gives (g := fun _ => throw (.expectedAtEnd ':'))
      fun _ _ _ _ hx => by cases hx).of_run rfl rfl
  · intro s' before v h hbefore
    refine runs_place.follows (hbefore.follows ?_)
    have hcolon : Opens ':' := ⟨by decide, by decide⟩
    refine (follows_open h (c := ':') rfl hcolon (by decide)).bind fun _ _ _ h => ?_
    refine (follows_blanks h).bind fun _ _ _ h => ?_
    refine (follows_reference h).bind fun _ _ _ h => ?_
    exact .gives runs_modify rfl ⟨h.pos, h.far, h.drop⟩

lemma follows_baseDeclaration (h : s.Before cs w) :
    Follows cs s (s.leaving w) baseDeclaration Step.baseDeclaration := by
  refine (follows_blanks h).bind fun _ _ _ h => ?_
  refine (follows_reference h).bind fun _ _ _ h => ?_
  exact .gives runs_modify rfl ⟨h.pos, h.far, h.drop⟩

lemma follows_directive (h : s.Before cs w) (hat : at' w 0 = '@') :
    Follows cs s (s.leaving w) directive Step.directive := by
  refine (follows_drop_one h hat (by decide)).bind fun _ s₁ w₁ h => ?_
  refine follows_rest ?_
  have hpass := runs_passWhile (tests_ahead (p := Char.isAlpha) (by decide)) h
  have hrest := before_passWhile (p := Char.isAlpha) h
  refine runs_place.follows (hpass.follows (runs_place.follows ((runs_passedWhile h).follows ?_)))
  refine follows_of_gives Step.gives_setRest ?_
  have hpoint {s : Cursor} {w : List Char} (h : s.Before cs w) :
      Follows cs s (s.leaving w) (expect '.') (Step.expect '.') := follows_expect h (by decide)
  dsimp only
  split_ifs
  · exact (follows_declaration hrest).bind fun _ _ _ h => hpoint h
  · exact (follows_baseDeclaration hrest).bind fun _ _ _ h => hpoint h
  · exact ((follows_fail hrest (by simp)).bind fun _ _ _ h => hpoint h)

lemma of_afterKeyword? {keyword : String} (h : afterKeyword? keyword w = some l) :
    keyword.length ≤ w.length ∧ w.drop keyword.length = l := by
  unfold afterKeyword? at h
  dsimp only at h
  split_ifs at h with hword
  simp only [Bool.and_eq_true] at hword
  have hne : at' w keyword.length ≠ '\x00' := fun hc => absurd (hc ▸ hword.2) (by decide)
  exact ⟨(lt_of_at' rfl hne).le, Option.some.inj h⟩

lemma follows_statement (h : s.Before cs w) :
    Follows cs s (s.leaving w) statement Step.statement := by
  refine follows_rest ((runs_ahead h).follows ?_)
  split_ifs with hat
  · exact follows_directive h (beq_iff_eq.1 hat)
  refine (runs_keywordAhead h).follows ?_
  cases hfirst : afterKeyword? "PREFIX" w with
  | some after =>
    obtain ⟨hn, hl⟩ := of_afterKeyword? hfirst
    exact (follows_setRest h hn hl).bind fun _ _ _ h => follows_declaration h
  | none =>
    refine (runs_keywordAhead h).follows ?_
    cases hsecond : afterKeyword? "BASE" w with
    | some after =>
      obtain ⟨hn, hl⟩ := of_afterKeyword? hsecond
      exact (follows_setRest h hn hl).bind fun _ _ _ h => follows_baseDeclaration h
    | none =>
      exact (follows_triples h).bind fun _ _ _ h => follows_expect h (by decide)

lemma follows_statementTurns (h : s.Before cs w) (hn : w.length < n) :
    Follows cs s (s.leaving w) (statementTurns n) (Step.statements n) := by
  induction n generalizing s w with
  | zero => exact absurd hn (Nat.not_lt_zero _)
  | succ n ih =>
    refine (follows_blanks h).bind_cuts Step.uses_blanks.toCuts fun _ s₁ w₁ h hlength₁ => ?_
    refine follows_atEnd h ?_
    split_ifs
    · exact follows_pure h
    · refine (follows_statement h).bind_cuts Step.cuts_statement fun _ s₂ w₂ h hlength₂ => ?_
      exact ih h (by omega)

lemma follows_document (h : s.Before cs cs) :
    Follows cs s (s.leaving cs) document Step.document :=
  runs_turns.follows (follows_rest (follows_statementTurns h (Nat.lt_succ_self _)))

/-- What follows a list of predicates and objects is a fault. -/
lemma follows_end (h : s.Before cs w) :
    Follows cs s (s.leaving w) (do if !(← atEnd) then fail (.afterList (← ahead 0)))
      (do
        match ← Step.rest with
        | [] => return
        | c :: _ => throw (.afterList c)) := by
  refine follows_rest ((runs_atEnd h).follows ?_)
  cases w with
  | nil => exact follows_pure h
  | cons c w => exact (runs_look h).follows (follows_fail h (by simp))

lemma follows_about {subject : Term} (h : s.Before cs w) :
    Follows cs s (s.leaving w) (about subject) (Step.about subject) := by
  refine (follows_blanks h).bind fun _ s₁ w₁ h => ?_
  refine follows_atEnd h ?_
  split_ifs
  · exact follows_pure h
  refine follows_fuel h ?_
  refine ((following cs _).properties _ _ _ h (Nat.le_refl _)).bind fun _ s₂ w₂ h => ?_
  refine (follows_blanks h).bind fun _ s₃ w₃ h => ?_
  refine (runs_atEnd h).follows (follows_ahead h ?_)
  by_cases hpoint : at' w₃ 0 = '.'
  · obtain ⟨more, hmore⟩ := exists_cons_of_at' hpoint (by decide)
    obtain rfl : w₃ = '.' :: more := hmore
    refine (follows_drop h (by simp)).bind fun _ _ _ h => ?_
    exact (follows_blanks h).bind fun _ _ _ h => follows_end h
  · rw [if_neg (by simp [hpoint]), if_neg (by simpa using hpoint)]
    exact follows_end h

/-- Whatever is read, reading it in the text does what reading what is left does. -/
lemma follows_task {task : Task} (h : s.Before cs cs) :
    Follows cs s (s.leaving cs) task.scan task.step := by
  cases task with
  | document => exact follows_document h
  | about subject => exact follows_about h

end Scan

lemma take_length_sub_drop : cs.take (cs.length - (cs.drop n).length) = cs.take n := by
  rw [List.length_drop]
  rcases Nat.le_total n cs.length with hn | hn
  · rw [Nat.sub_sub_self hn]
  · rw [Nat.sub_eq_zero_of_le hn, Nat.sub_zero, List.take_length, List.take_of_length_le hn]

/-- **Reading stays in the text**: whatever the reader, the text and the graph, reading ends, and
all that it takes from the text is there. Either the whole text is read, the place never was behind
its end, and the triples are added to the graph; or a fault is found and the graph is as it was, and
the place is behind the end only if the fault is an escape without a character. The reader of what
is left ends in the same way. -/
theorem parseInto_stays (r : Reader) (task : Task) (text : String) (target : Graph) :
    (∃ g r' far, r.parseInto task text target = ⟨.ok (), r', far, target.addAll g.triples⟩ ∧
      far ≤ text.toList.length ∧ r.run task.step text = (.ok g, r')) ∨
    ∃ e r' far, r.parseInto task text target = ⟨.error (.diagnostic e), r', far, target⟩ ∧
      (text.toList.length < far → e.fault = .badEscape '\x00') ∧
      r.run task.step text = (.error e, r') ∧ e.fault ≠ .tooDeep := by
  have hstart : Cursor.Before text.toList ⟨r, 0, 0, .empty⟩ text.toList :=
    ⟨Nat.le_refl 0, Nat.zero_le _, rfl⟩
  have hfollows : Scan.Follows _ _ _ task.scan task.step := Scan.follows_task hstart
  cases hfollows with
  | @gives _ s w hy hx h =>
    have hrun : task.step.run.run ⟨r, text.toList, .empty⟩ = (.ok (), s.leaving w) := hx
    refine .inl ⟨s.graph, s.reader, s.far, ?_, h.far, ?_⟩
    · rw [Reader.parseInto, hy]
    · simp only [Reader.run, hrun, Cursor.leaving]
  | @faults fault s hy hx hdeep hfar =>
    have hrun : task.step.run.run ⟨r, text.toList, .empty⟩ =
        (.error fault, s.leaving (text.toList.drop s.pos)) := hx
    refine .inr ⟨⟨1 + count '\n' (text.toList.take s.pos), fault⟩, s.reader, s.far, ?_, ?_, ?_,
      hdeep⟩
    · rw [Reader.parseInto, hy]
    · exact fun hlt => hfar.resolve_left (Nat.not_le_of_lt hlt)
    · simp only [Reader.run, hrun, Cursor.leaving, take_length_sub_drop]

/-- The place is behind the end only for a moment: a fault is found there. -/
example : ((Reader.new .empty "").parseInto .document "<s> <p> \"\\" .empty).far = 11 := by
  decide +kernel

end Semlift.Rdf.Turtle
