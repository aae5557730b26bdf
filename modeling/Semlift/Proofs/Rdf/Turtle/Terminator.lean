import Semlift.Proofs.Rdf.Turtle.InFront

/-!
The point that ends a statement. No gap is needed in front of it: a statement of a subject, a
predicate and an object says the same with the point directly behind its object, unless the object
is a truth value. The point is a character of names, and is not given back there.
-/

namespace Semlift.Rdf.Turtle

open Semlift.Text

variable {u v w w₁ w₂ z cs rest S P O gap tail tail' : List Char} {c d : Char}
  {r r' r₁ r₂ : Reader} {g g' g₁ g₂ : Graph} {s p o t : Term} {n m k : Nat} {q : Progress}

namespace Step

/-! ### Subjects -/

/-- The subject of a statement: a node in brackets or with a label, a collection or a name. -/
def subject (n : Nat) : Step Term := do
  blanks
  let c ← ahead 0
  let d ← ahead 1
  if c == '[' || c == '(' || (c == '_' && d == ':') then object n else name

lemma gives_subject_cons_iff (hc : Opens c) : Gives (subject n) ⟨r, c :: cs, g⟩ t q ↔
    Gives (if c == '[' || c == '(' || (c == '_' && at' cs 0 == ':') then object n else name)
      ⟨r, c :: cs, g⟩ t q := by
  rw [subject, (gives_blanks_cons hc).bind_iff, gives_ahead.bind_iff, gives_ahead.bind_iff]
  exact .rfl

lemma cuts_subject {p : Progress} : Goes (Cuts 1) (subject n) p := by
  refine uses_blanks.toCuts.cuts fun _ _ _ => uses_ahead.toCuts.cuts fun c _ _ => ?_
  refine uses_ahead.toCuts.cuts fun d _ _ => ?_
  split_ifs
  · exact (cutting n).object _
  · exact uses_name.toCuts

lemma skips_subject : Skips (subject n) := skips_blanks

lemma subject_closing (hu : Gapped u) (hv : Closing u v) (hw : w₂ ≠ [])
    (hm : 3 * w.length + 1 ≤ m) (h : Gives (subject n) ⟨r, w ++ u, g⟩ t ⟨r', w₂ ++ u, g'⟩) :
    Gives (subject m) ⟨r, w ++ v, g⟩ t ⟨r', w₂ ++ v, g'⟩ := by
  obtain ⟨c, w', hbegun, hfrom⟩ := skips_subject.begun hu (fun _ => cuts_subject) h
  have hlength := hbegun.length_le
  have hcolon : (at' (w' ++ v) 0 == ':') = (at' (w' ++ u) 0 == ':') := by
    rw [Bool.eq_iff_iff, beq_iff_eq, beq_iff_eq]
    exact at'_zero_closing hu hv (by decide) (by decide)
  rw [skips_subject.gives_iff hbegun, List.cons_append, gives_subject_cons_iff hbegun.opens,
    hcolon]
  rw [List.cons_append, gives_subject_cons_iff hbegun.opens] at hfrom
  split_ifs at hfrom ⊢
  · exact (inFront hu hv n).object m r (c :: w') g t r' w₂ g'
      (by simp only [List.length_cons]; omega) (fun hnil => absurd hnil hw) hfrom
  · exact name_closing_cons hu hv hbegun.opens hfrom

/-- A subject begins like a name, a label or a bracket. -/
lemma exists_word_of_subject (hc : Opens c)
    (h : Gives (subject n) ⟨r, c :: cs, g⟩ t ⟨r', rest, g'⟩) :
    ∃ w d more, c :: cs = w ++ d :: more ∧ (∀ c ∈ w, isNameChar c = true) ∧
      d ∈ [':', '<', '_', '[', '('] := by
  have hfrom := (gives_subject_cons_iff hc).1 h
  split_ifs at hfrom with hnode
  · refine ⟨[], c, cs, rfl, by simp, ?_⟩
    simp only [Bool.or_eq_true, Bool.and_eq_true, beq_iff_eq] at hnode
    rcases hnode with (rfl | rfl) | ⟨rfl, -⟩ <;> decide
  · by_cases hbracket : c = '<'
    · exact ⟨[], c, cs, rfl, by simp, by simp [hbracket]⟩
    · obtain ⟨before, more, -, -, hl, -⟩ := (gives_name_prefixed_iff hc hbracket).1 hfrom
      obtain ⟨⟨w, hw, htext⟩, more, rfl⟩ := cut_of_prefixName hl
      exact ⟨w, ':', more, htext, hw, by decide⟩

/-- A point behind a node in brackets ends the statement. -/
lemma gives_triples_iff (hc : Opens c)
    (hs : Gives (subject (3 * (c :: cs).length + 3)) ⟨r, c :: cs, g⟩ s ⟨r₁, rest, g₁⟩)
    (hpoint : c = '[' → at' (skip rest) 0 ≠ '.') :
    Gives triples ⟨r, c :: cs, g⟩ () q ↔
      Gives (properties (3 * (c :: cs).length + 3) s) ⟨r₁, rest, g₁⟩ () q := by
  have hfrom := (gives_subject_cons_iff hc).1 hs
  rw [triples, (gives_blanks_cons hc).bind_iff, gives_fuel.bind_iff, gives_ahead.bind_iff]
  dsimp only
  rw [at'_zero]
  by_cases hbracket : c = '['
  · rw [if_pos (by simp [hbracket])] at hfrom ⊢
    have hgo : (at' (skip rest) 0 != '.') = true := bne_iff_ne.2 (hpoint hbracket)
    rw [hfrom.bind_iff, gives_blanks.bind_iff, gives_ahead.bind_iff]
    dsimp only
    rw [if_pos hgo]
    exact (skips_properties ..).symm
  · have hfalse : (c == '[') = false := beq_false_of_ne hbracket
    rw [hfalse, Bool.false_or] at hfrom
    rw [if_neg (by simp [hfalse]), gives_ahead.bind_iff]
    have hsecond : at' (c :: cs) 1 = at' cs 0 := rfl
    dsimp only
    rw [hsecond]
    split_ifs at hfrom ⊢
    · rw [hfrom.bind_iff]
    · rw [hfrom.bind_iff]

/-! ### Statements -/

lemma Gives.unique {α : Type} {x : Step α} {p q q' : Progress} {a b : α} (h : Gives x p a q)
    (h' : Gives x p b q') : a = b ∧ q = q' := by
  obtain ⟨ha, hq⟩ := Prod.mk.inj (h.symm.trans h')
  exact ⟨Except.ok.inj ha, hq⟩

lemma gives_of_fst {α : Type} {x : Step α} {p : Progress} {a : α}
    (h : (x.run.run p).1 = .ok a) : Gives x p a (x.run.run p).2 := Prod.ext h rfl

lemma gives_statement_iff (hc : Opens c)
    (hs : Gives (subject n) ⟨r, c :: cs, g⟩ s ⟨r', rest, g'⟩) :
    Gives statement ⟨r, c :: cs, g⟩ () q ↔
      ∃ m, Gives triples ⟨r, c :: cs, g⟩ () m ∧ Gives (expect '.') m () q := by
  obtain ⟨w, d, more, htext, hw, hd⟩ := exists_word_of_subject hc hs
  have hrun : Gives statement ⟨r, c :: cs, g⟩ () q ↔
      Gives (do triples; expect '.') ⟨r, c :: cs, g⟩ () q := by
    rw [htext]
    exact (congrArg (· = _) (run_statement hw hd)).to_iff
  rw [hrun, gives_seq_iff]

lemma skips_statements : Skips (statements n) := by
  cases n with
  | zero => exact fun _ _ _ _ _ => ⟨nofun, nofun⟩
  | succ n =>
    rw [statements]
    exact skips_blanks

lemma gives_statements_iff (h : skip cs = c :: rest) :
    Gives (statements (n + 1)) ⟨r, cs, g⟩ () q ↔
      ∃ m, Gives statement ⟨r, c :: rest, g⟩ () m ∧ Gives (statements n) m () q := by
  rw [statements, gives_blanks.bind_iff, gives_atEnd.bind_iff]
  dsimp only
  rw [h, if_neg (by simp), gives_seq_iff]

/-- Every statement takes a character, so more fuel than characters is enough. -/
lemma gives_statements_of_lt (h : Gives (statements n) ⟨r, cs, g⟩ () q) (hm : cs.length < m) :
    Gives (statements m) ⟨r, cs, g⟩ () q := by
  induction n generalizing m r cs g with
  | zero => cases h
  | succ n ih =>
    obtain ⟨m, rfl⟩ : ∃ m', m = m' + 1 := ⟨m - 1, by omega⟩
    cases hskip : skip cs with
    | nil =>
      rw [statements, gives_blanks.bind_iff, gives_atEnd.bind_iff] at h ⊢
      dsimp only at h ⊢
      rw [hskip] at h ⊢
      exact h
    | cons c rest =>
      obtain ⟨⟨r₁, cs₁, g₁⟩, hstatement, hmore⟩ := (gives_statements_iff hskip).1 h
      have hleft : Leaves 0 cs (c :: rest) := hskip ▸ leaves_skipFrom
      have hlength : Leaves 1 cs cs₁ := hleft.trans (cuts_statement _ _ hstatement)
      refine (gives_statements_iff hskip).2 ⟨_, hstatement, ih hmore ?_⟩
      have := hlength.length
      omega

/-! ### Truth values -/

/-- A point behind name characters is one of them. -/
lemma prefixName_point {bad : Char → Fault} {missing : Fault} {name : String}
    (hw : ∀ c ∈ w, isNameChar c = true) (htail : ∀ c ∈ tail.head?, isBlank c = true) :
    prefixName bad missing (w ++ '.' :: tail) ≠ .ok (name, rest) := by
  intro h
  have hdrop : (w ++ '.' :: tail).dropWhile isNameChar = tail := by
    rw [List.dropWhile_append_of_pos hw, List.dropWhile_cons_of_pos (by decide)]
    exact dropWhile_append_of_head (w := []) fun c hc =>
      isNameChar_of_mem_gaps (mem_gaps_iff.2 (.inl (htail c hc)))
  unfold prefixName at h
  dsimp only at h
  rw [hdrop] at h
  split at h
  · cases h
  · rename_i c more
    split_ifs at h with hc
    exact absurd (htail c rfl) (by rw [hc]; decide)

lemma truth?_truthWord_point {b : Bool} : truth? (truthWord b ++ '.' :: tail) = none := by
  refine Option.eq_none_iff_forall_ne_some.2 fun s hs => ?_
  obtain ⟨t, rest⟩ := s
  obtain ⟨⟨b', -, hword⟩, hend, -⟩ := truth?_eq_some_iff.1 hs
  cases b <;> cases b'
  case true.false | false.true => cases hword
  all_goals
    obtain rfl : '.' :: tail = rest := List.append_cancel_left hword
    cases hend

lemma not_gives_truthWord {b : Bool} (htail : ∀ c ∈ tail.head?, isBlank c = true) :
    ¬Gives (object n) ⟨r, truthWord b ++ '.' :: tail, g⟩ t q := by
  intro h
  obtain ⟨r', rest, g'⟩ := q
  have hchars : ∀ b, (truthWord b).all isNameChar = true := by decide
  obtain ⟨c, w', hword, hc⟩ : ∃ c w', truthWord b = c :: w' ∧ (c = 't' ∨ c = 'f') := by
    cases b
    · exact ⟨'f', _, rfl, .inr rfl⟩
    · exact ⟨'t', _, rfl, .inl rfl⟩
  have hopens : Opens c := by rcases hc with rfl | rfl <;> exact ⟨by decide, by decide⟩
  have hbracket : c ≠ '<' := by rcases hc with rfl | rfl <;> decide
  have htruth : truth? (c :: w' ++ '.' :: tail) = none := hword ▸ truth?_truthWord_point
  rw [hword] at h
  cases n with
  | zero => cases h
  | succ n =>
    have hpick {d : Char} : objectOf n c d = truthOrName := by rcases hc with rfl | rfl <;> rfl
    rw [List.cons_append, gives_object_cons_iff hopens, hpick, truthOrName,
      gives_rest.bind_iff] at h
    dsimp only at h
    rw [← List.cons_append, htruth] at h
    obtain ⟨before, more, -, -, hl, -⟩ := (gives_name_prefixed_iff hopens hbracket).1 h
    exact prefixName_point (List.all_eq_true.1 (hword ▸ hchars b)) htail hl

/-- A truth value is no object when a point follows it. -/
lemma not_gives_isTruth {w' : List Char} (hbegun : Begun w c w') (htruth : IsTruth w)
    (htail : ∀ c ∈ tail.head?, isBlank c = true) :
    ¬Gives (object n) ⟨r, w ++ '.' :: tail, g⟩ t q := by
  obtain ⟨b, hb⟩ := htruth
  have hskip := hbegun.skip []
  rw [List.append_nil, List.append_nil, hb] at hskip
  rw [skips_object.gives_iff hbegun, ← hskip]
  exact not_gives_truthWord htail

/-! ### Statements of one triple -/

lemma exists_begun_of_object (hu : Gapped u)
    (h : Gives (object n) ⟨r, w ++ u, g⟩ t ⟨r', u, g'⟩) : ∃ c w', Begun w c w' := by
  have hnil : Gives (object n) ⟨r, w ++ u, g⟩ t ⟨r', [] ++ u, g'⟩ := h
  obtain ⟨c, w', hbegun, -⟩ := skips_object.begun hu (fun q => (cutting n).object q) hnil
  exact ⟨c, w', hbegun⟩

/-- What is left of a text behind its subject, behind its predicate and behind its object. -/
def ends (n : Nat) : Step (List Char × List Char × List Char) := do
  let _ ← subject n
  let behindSubject ← Step.rest
  let _ ← verb
  let behindVerb ← Step.rest
  let _ ← object n
  return (behindSubject, behindVerb, ← Step.rest)

section Parts

variable (hu : Gapped u) (hv : Closing u v)

include hu hv

/-- A predicate and its object, with a point behind them. -/
lemma gives_pair (hverb : Gives verb ⟨r₁, P ++ O ++ u, g₁⟩ p ⟨r₁, O ++ u, g₁⟩)
    (hobject : Gives (object n) ⟨r₁, O ++ u, g₁⟩ o ⟨r₂, u, g₂⟩) (hfinal : v = u ∨ ¬IsTruth O)
    (hend : skip v = '.' :: rest) (hm : 3 * (P ++ O).length + 3 ≤ m) :
    Gives (properties m s) ⟨r₁, P ++ O ++ v, g₁⟩ () ⟨r₂, '.' :: rest, g₂.add ⟨s, p, o⟩⟩ := by
  obtain ⟨m, rfl⟩ : ∃ m', m = m' + 2 := ⟨m - 2, by omega⟩
  obtain ⟨c, w', hbegun⟩ := exists_begun_of_object hu hobject
  have hlength : O.length ≤ (P ++ O).length := by simp
  have hverb' : Gives verb ⟨r₁, P ++ O ++ v, g₁⟩ p ⟨r₁, O ++ v, g₁⟩ :=
    verb_closing hu hv hbegun.ne_nil hverb
  have hobject' : Gives (object m) ⟨r₁, O ++ v, g₁⟩ o ⟨r₂, v, g₂⟩ :=
    (inFront hu hv n).object m r₁ O g₁ o r₂ [] g₂ (by omega) (fun _ => hfinal) hobject
  have hobjects : Gives (objects (m + 1) s p) ⟨r₁, O ++ v, g₁⟩ ()
      ⟨r₂, '.' :: rest, g₂.add ⟨s, p, o⟩⟩ := by
    rw [objects]
    refine hobject'.bind (gives_emit.bind (gives_blanks.bind (gives_ahead.bind ?_)))
    dsimp only
    rw [hend]
    exact gives_pure
  rw [properties]
  refine hverb'.bind (hobjects.bind ?_)
  exact (gives_blanks_cons ⟨by decide, by decide⟩).bind (gives_ahead.bind gives_pure)

/-- What is read of a document that begins with a statement of three parts. -/
lemma exists_gives_document_iff
    (hsubject : Gives (subject n) ⟨r, S ++ P ++ O ++ u, .empty⟩ s ⟨r₁, P ++ O ++ u, g₁⟩)
    (hnode : at' (skip (S ++ P ++ O ++ u)) 0 = '[' → at' (skip (P ++ O ++ u)) 0 ≠ '.')
    (hverb : Gives verb ⟨r₁, P ++ O ++ u, g₁⟩ p ⟨r₁, O ++ u, g₁⟩) (hO : O ≠ []) :
    ∃ m, 3 * (P ++ O).length + 3 ≤ m ∧ ∀ q,
      Gives document ⟨r, S ++ P ++ O ++ v, .empty⟩ () q ↔ ∃ q₁ q₂,
        Gives (properties m s) ⟨r₁, P ++ O ++ v, g₁⟩ () q₁ ∧ Gives (expect '.') q₁ () q₂ ∧
          Gives (statements (S ++ P ++ O ++ v).length) q₂ () q := by
  obtain ⟨c, w', hbegun, hfrom⟩ := skips_subject.begun hu (fun _ => cuts_subject) hsubject
  obtain ⟨d, w'', hbegun', -⟩ := skips_blanks.begun hu (fun _ => uses_verb.toCuts) hverb
  have hlength : (P ++ O).length + 1 ≤ (c :: w').length :=
    length_le_of_leaves (cuts_subject _ _ hfrom)
  have hfuel : (c :: (w' ++ v)).length = (c :: w').length + v.length := by
    rw [← List.cons_append, List.length_append]
  have hs : Gives (subject (3 * (c :: (w' ++ v)).length + 3)) ⟨r, c :: (w' ++ v), .empty⟩ s
      ⟨r₁, P ++ O ++ v, g₁⟩ :=
    subject_closing (w := c :: w') hu hv (by simp [hO]) (by omega) hfrom
  have hpoint : c = '[' → at' (skip (P ++ O ++ v)) 0 ≠ '.' := by
    rw [hbegun.skip, hbegun'.skip] at hnode
    rw [hbegun'.skip]
    exact hnode
  have hstatement (q₂ : Progress) : Gives statement ⟨r, c :: (w' ++ v), .empty⟩ () q₂ ↔ ∃ q₁,
      Gives (properties (3 * (c :: (w' ++ v)).length + 3) s) ⟨r₁, P ++ O ++ v, g₁⟩ () q₁ ∧
        Gives (expect '.') q₁ () q₂ := by
    rw [gives_statement_iff hbegun.opens hs]
    exact exists_congr fun q₁ => and_congr_left' (gives_triples_iff hbegun.opens hs hpoint)
  refine ⟨3 * (c :: (w' ++ v)).length + 3, by omega, fun q => ?_⟩
  rw [document, gives_rest.bind_iff, gives_statements_iff (hbegun.skip v)]
  constructor
  · rintro ⟨q₂, hq₂, hmore⟩
    obtain ⟨q₁, hlist, hexpect⟩ := (hstatement q₂).1 hq₂
    exact ⟨q₁, q₂, hlist, hexpect, hmore⟩
  · rintro ⟨q₁, q₂, hlist, hexpect, hmore⟩
    exact ⟨q₂, (hstatement q₂).2 ⟨q₁, hlist, hexpect⟩, hmore⟩

omit hv in
/-- A predicate and a truth value with a point directly behind it. -/
lemma not_gives_pair (hverb : Gives verb ⟨r₁, P ++ O ++ u, g₁⟩ p ⟨r₁, O ++ u, g₁⟩)
    (hobject : Gives (object n) ⟨r₁, O ++ u, g₁⟩ o ⟨r₂, u, g₂⟩) (htruth : IsTruth O)
    (htail : ∀ c ∈ tail.head?, isBlank c = true) :
    ¬Gives (properties m s) ⟨r₁, P ++ O ++ '.' :: tail, g₁⟩ () q := by
  intro h
  obtain ⟨c, w', hbegun⟩ := exists_begun_of_object hu hobject
  cases m with
  | zero => cases h
  | succ m =>
    have hverb' : Gives verb ⟨r₁, P ++ O ++ '.' :: tail, g₁⟩ p ⟨r₁, O ++ '.' :: tail, g₁⟩ :=
      verb_closing hu (.point htail) hbegun.ne_nil hverb
    rw [properties, hverb'.bind_iff] at h
    obtain ⟨_, q₁, hobjects, -⟩ := gives_bind_iff.1 h
    cases m with
    | zero => cases hobjects
    | succ m =>
      rw [objects] at hobjects
      obtain ⟨t, q₂, ht, -⟩ := gives_bind_iff.1 hobjects
      exact not_gives_isTruth hbegun htruth htail ht

end Parts

end Step

/-- The subject, the predicate and the object of a statement, each with the gap in front of it, are
read one after the other, and the object ends where the rest begins. Behind a node in brackets a
predicate cannot begin with a point: the point would end the statement. -/
structure Parts (r : Reader) (S P O rest : List Char) : Prop where
  ends : ∃ n, ((Step.ends n).run.run ⟨r, S ++ P ++ O ++ rest, .empty⟩).1 =
    .ok (P ++ O ++ rest, O ++ rest, rest)
  node : at' (skip (S ++ P ++ O ++ rest)) 0 = '[' → at' (skip (P ++ O ++ rest)) 0 ≠ '.'

lemma Parts.exists_gives (h : Parts r S P O rest) : ∃ n s p o r₁ r₂ g₁ g₂,
    Step.Gives (Step.subject n) ⟨r, S ++ P ++ O ++ rest, .empty⟩ s ⟨r₁, P ++ O ++ rest, g₁⟩ ∧
      Step.Gives Step.verb ⟨r₁, P ++ O ++ rest, g₁⟩ p ⟨r₁, O ++ rest, g₁⟩ ∧
      Step.Gives (Step.object n) ⟨r₁, O ++ rest, g₁⟩ o ⟨r₂, rest, g₂⟩ := by
  obtain ⟨n, hends⟩ := h.ends
  have hgives := Step.gives_of_fst hends
  obtain ⟨s, ⟨r₁, cs₁, g₁⟩, hsubject, hgives⟩ := Step.gives_bind_iff.1 hgives
  rw [Step.gives_rest.bind_iff] at hgives
  obtain ⟨p, ⟨r₂, cs₂, g₂⟩, hverb, hgives⟩ := Step.gives_bind_iff.1 hgives
  rw [Step.gives_rest.bind_iff] at hgives
  obtain ⟨o, ⟨r₃, cs₃, g₃⟩, hobject, hgives⟩ := Step.gives_bind_iff.1 hgives
  rw [Step.gives_rest.bind_iff] at hgives
  obtain ⟨heq, -⟩ := Step.gives_pure_iff.1 hgives
  simp only [Prod.mk.injEq] at heq
  obtain ⟨rfl, rfl, rfl⟩ := heq
  obtain ⟨rfl, rfl, -⟩ := Step.uses_verb _ _ hverb
  exact ⟨n, s, p, o, _, _, _, _, hsubject, hverb, hobject⟩

lemma gapped_of_skip (hgap : gap ≠ []) (hskip : skip (gap ++ '.' :: tail) = '.' :: tail) :
    Gapped (gap ++ '.' :: tail) := by
  obtain ⟨c, more, rfl⟩ := List.exists_cons_of_ne_nil hgap
  refine ⟨c, mem_gaps_iff.2 ?_, more ++ '.' :: tail, rfl⟩
  by_contra! hc
  have hopens : Opens c := ⟨by simpa using hc.1, hc.2⟩
  have hlength := congrArg List.length ((skip_cons hopens).symm.trans hskip)
  simp only [List.append_eq, List.length_append, List.length_cons] at hlength
  omega

/-- **No gap is needed in front of the point** that ends a statement: without it, the document is
read in the same way, exactly if the object is no truth value. -/
theorem read_point_iff (hparts : Parts r S P O (gap ++ '.' :: tail)) (hgap : gap ≠ [])
    (hskip : skip (gap ++ '.' :: tail) = '.' :: tail)
    (htail : ∀ c ∈ tail'.head?, isBlank c = true) (hrest : skip tail' = skip tail)
    (h : (r.read (String.ofList (S ++ P ++ O ++ (gap ++ '.' :: tail)))).1 = .ok g) :
    r.read (String.ofList (S ++ P ++ O ++ '.' :: tail')) =
        r.read (String.ofList (S ++ P ++ O ++ (gap ++ '.' :: tail))) ↔ ¬IsTruth O := by
  have hu : Gapped (gap ++ '.' :: tail) := gapped_of_skip hgap hskip
  have hv : Closing (gap ++ '.' :: tail) ('.' :: tail') := .point htail
  obtain ⟨n, s, p, o, r₁, r₂, g₁, g₂, hsubject, hverb, hobject⟩ := hparts.exists_gives
  obtain ⟨c, w', hbegun⟩ := Step.exists_begun_of_object hu hobject
  obtain ⟨m, hm, hdocument⟩ :=
    Step.exists_gives_document_iff hu .same hsubject hparts.node hverb hbegun.ne_nil
  obtain ⟨m', hm', hdocument'⟩ :=
    Step.exists_gives_document_iff hu hv hsubject hparts.node hverb hbegun.ne_nil
  have hpoint {rest : List Char} {r : Reader} {g : Graph} :
      Step.Gives (Step.expect '.') ⟨r, '.' :: rest, g⟩ () ⟨r, rest, g⟩ :=
    (Step.gives_expect_iff ⟨by decide, by decide⟩).2 ⟨rfl, rfl⟩
  -- the accepted document, to the end of its first statement
  obtain ⟨q, hq⟩ := exists_gives_of_read h
  rw [String.toList_ofList] at hq
  obtain ⟨q₁, q₂, hlist, hexpect, hmore⟩ := (hdocument q).1 hq
  obtain ⟨-, rfl⟩ :=
    hlist.unique (Step.gives_pair hu .same hverb hobject (.inl rfl) hskip hm)
  obtain ⟨-, rfl⟩ := hexpect.unique hpoint
  constructor
  · intro heq htruth
    obtain ⟨q', hq'⟩ := exists_gives_of_read (heq ▸ h)
    rw [String.toList_ofList] at hq'
    obtain ⟨q₁, q₂, hlist', -⟩ := (hdocument' q').1 hq'
    exact Step.not_gives_pair hu hverb hobject htruth htail hlist'
  · intro hnot
    have hmoved : Step.Gives (Step.statements (S ++ P ++ O ++ (gap ++ '.' :: tail)).length)
        ⟨r₂, tail', g₂.add ⟨s, p, o⟩⟩ () q :=
      (Step.skips_statements ..).2 (hrest ▸ (Step.skips_statements ..).1 hmore)
    have hlength : tail'.length < (S ++ P ++ O ++ '.' :: tail').length := by
      simp only [List.length_append, List.length_cons]
      omega
    have hmore' := Step.gives_statements_of_lt hmoved hlength
    have hlist' := Step.gives_pair (s := s) hu hv hverb hobject (.inr hnot)
      (skip_cons ⟨by decide, by decide⟩) hm'
    have hq' := (hdocument' q).2 ⟨_, _, hlist', hpoint, hmore'⟩
    rw [read_of_gives (by rwa [String.toList_ofList]),
      read_of_gives (by rwa [String.toList_ofList])]

/-- A collection of a number and a label, with a comment in the gap behind it. -/
theorem read_point_iff_collection :
    Parts (Reader.new .empty "") "[]".toList " <urn:p>".toList " ( 2.5 _:b )".toList
        " # .\n._:b <urn:p> true .".toList ∧
      (Reader.new .empty "").read "[] <urn:p> ( 2.5 _:b ). _:b <urn:p> true ." =
        (Reader.new .empty "").read "[] <urn:p> ( 2.5 _:b ) # .\n._:b <urn:p> true ." := by
  have hparts : Parts (Reader.new .empty "") "[]".toList " <urn:p>".toList
      " ( 2.5 _:b )".toList (" # .\n".toList ++ '.' :: "_:b <urn:p> true .".toList) :=
    ⟨⟨60, by decide +kernel⟩, by decide +kernel⟩
  have hread : String.ofList ("[]".toList ++ " <urn:p>".toList ++ " ( 2.5 _:b )".toList ++
      (" # .\n".toList ++ '.' :: "_:b <urn:p> true .".toList)) =
        "[] <urn:p> ( 2.5 _:b ) # .\n._:b <urn:p> true ." := by decide +kernel
  have hmoved : String.ofList ("[]".toList ++ " <urn:p>".toList ++ " ( 2.5 _:b )".toList ++
      '.' :: " _:b <urn:p> true .".toList) = "[] <urn:p> ( 2.5 _:b ). _:b <urn:p> true ." := by
    decide +kernel
  obtain ⟨g, hg, -⟩ := exists_ok_of_any (p := fun _ => true)
    (x := ((Reader.new .empty "").read "[] <urn:p> ( 2.5 _:b ) # .\n._:b <urn:p> true .").1)
    (by decide +kernel)
  have htail : ∀ c ∈ " _:b <urn:p> true .".toList.head?, isBlank c = true := by simp [isBlank]
  have hiff := read_point_iff hparts (by decide) (by decide +kernel) htail (by decide +kernel)
    (hread ▸ hg)
  rw [hread, hmoved] at hiff
  exact ⟨hparts, hiff.2 (by decide +kernel)⟩

/-- The point goes on with the word of a truth value, and no colon follows it. -/
theorem truth_point_lost :
    Parts (Reader.new .empty "") "<urn:s>".toList " <urn:p>".toList " true".toList " .".toList ∧
      ((Reader.new .empty "").read "<urn:s> <urn:p> true .").1.map Graph.triples =
        .ok [⟨.iri "urn:s", .iri "urn:p", .boolean true⟩] ∧
      ((Reader.new .empty "").read "<urn:s> <urn:p> true.").1.map Graph.triples =
        .error ⟨1, .noColon⟩ ∧
      ((Reader.new .empty "").read "<urn:s> <urn:p> true. ").1.map Graph.triples =
        .error ⟨1, .unexpected ' '⟩ :=
  ⟨⟨⟨60, by decide +kernel⟩, by decide +kernel⟩, by decide +kernel, by decide +kernel,
    by decide +kernel⟩

end Semlift.Rdf.Turtle
