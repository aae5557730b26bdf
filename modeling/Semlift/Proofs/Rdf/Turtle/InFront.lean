import Semlift.Proofs.Rdf.Turtle.Point

/-!
Terms in front of a gap. What is read of a text that ends in front of a gap is read in the same way
when a point that ends a statement stands in the place of the gap. This holds of every reader of
terms, and of the four that call each other with any fuel that is enough for the text up to there.
The only exception is an object that is a truth value: a point behind it goes on with its word.
-/

namespace Semlift.Rdf.Turtle

open Semlift.Text

variable {u v w w₁ w₂ z cs rest : List Char} {c d : Char} {r r' r'' : Reader} {g g' g'' : Graph}
  {t t' s p : Term} {ts : List Term} {n m k : Nat}

/-! ### Gaps -/

/-- Behind the blanks at its beginning a text goes on with a character, whatever follows it. -/
structure Begun (w : List Char) (c : Char) (w' : List Char) : Prop where
  opens : Opens c
  skip (z : List Char) : skip (w ++ z) = c :: w' ++ z

lemma begun_of_skip (hu : Gapped u) (h : skip (w ++ u) = w₁ ++ u) :
    ∃ c w', w₁ = c :: w' ∧ Begun w c w' := by
  obtain ⟨hne, hz⟩ := skipFrom_closing (fun _ => id) hu h
  obtain ⟨c, w', rfl⟩ := List.exists_cons_of_ne_nil hne
  exact ⟨c, w', rfl, opens_of_skipFrom (hz u), hz⟩

lemma Begun.length_le {w' : List Char} (h : Begun w c w') : w'.length + 1 ≤ w.length := by
  have hskip := h.skip []
  rw [List.append_nil, List.append_nil] at hskip
  have hleaves : Leaves 0 w (Turtle.skip w) := leaves_skipFrom
  simpa [hskip] using hleaves.length

lemma Begun.ne_nil {w' : List Char} (h : Begun w c w') : w ≠ [] := by
  rintro rfl
  exact absurd h.length_le (by simp)

lemma exists_append_of_leaves (h : Leaves k cs (w₂ ++ u)) :
    ∃ w₁, cs = w₁ ++ u ∧ w₂.length + k ≤ w₁.length := by
  obtain ⟨w, rfl⟩ := h.suffix
  refine ⟨w ++ w₂, (List.append_assoc ..).symm, ?_⟩
  have := h.length
  simp only [List.length_append] at this ⊢
  omega

/-- What goes on behind blanks in front of a gap. -/
lemma exists_begun (hu : Gapped u) (h : Leaves k (skip cs) (w₂ ++ u)) :
    ∃ w₁ c w', cs = w₁ ++ u ∧ Begun w₁ c w' := by
  have hcs : Leaves k cs (w₂ ++ u) := leaves_skipFrom.trans h
  obtain ⟨w₁, rfl, -⟩ := exists_append_of_leaves hcs
  obtain ⟨w₃, hw₃, -⟩ := exists_append_of_leaves h
  obtain ⟨c, w', -, hbegun⟩ := begun_of_skip hu hw₃
  exact ⟨w₁, c, w', rfl, hbegun⟩

lemma length_le_of_leaves (h : Leaves k (w ++ u) (w₁ ++ u)) : w₁.length + k ≤ w.length := by
  have := h.length
  simp only [List.length_append] at this
  omega

/-- A text that is a truth value and nothing else. -/
def IsTruth (w : List Char) : Prop := ∃ b, skip w = truthWord b

instance : DecidablePred IsTruth := fun w =>
  decidable_of_iff (skip w = truthWord false ∨ skip w = truthWord true) (by simp [IsTruth])

namespace Step

variable {α β : Type} {x y : Step α} {f : α → Step β} {a : α}

/-! ### What the readers do -/

variable {q : Progress} {p' : Progress} {b : β}

lemma gives_bind_iff {p'' : Progress} :
    Gives (x >>= f) p' b p'' ↔ ∃ a m, Gives x p' a m ∧ Gives (f a) m b p'' :=
  ⟨of_run_bind, fun ⟨_, _, h, h'⟩ => h.bind h'⟩

lemma gives_seq_iff {x : Step Unit} {f : Unit → Step β} {p'' : Progress} :
    Gives (x >>= f) p' b p'' ↔ ∃ m, Gives x p' () m ∧ Gives (f ()) m b p'' := by
  rw [gives_bind_iff]
  constructor
  · rintro ⟨⟨⟩, m, h⟩
    exact ⟨m, h⟩
  · rintro ⟨m, h⟩
    exact ⟨(), m, h⟩

lemma Gives.bind_iff (h : Gives x p' a q) {p'' : Progress} :
    Gives (x >>= f) p' b p'' ↔ Gives (f a) q b p'' := by
  unfold Gives
  rw [h.run_bind]

/-- A step that skips blanks before it does anything else. -/
def Skips (x : Step α) : Prop :=
  ∀ r cs g a q, Gives x ⟨r, cs, g⟩ a q ↔ Gives x ⟨r, skip cs, g⟩ a q

lemma skips_blanks {f : Unit → Step α} : Skips (blanks >>= f) := by
  intro r cs g a q
  rw [gives_blanks.bind_iff, gives_blanks.bind_iff]
  dsimp only
  rw [skip_skip]

lemma Skips.bind (h : Skips x) : Skips (x >>= f) := by
  intro r cs g a q
  simp only [gives_bind_iff, h r cs g]

lemma skips_object : Skips (object n) := by
  cases n with
  | zero => exact fun _ _ _ _ _ => ⟨nofun, nofun⟩
  | succ n =>
    rw [object]
    exact skips_blanks

lemma skips_objects : Skips (objects n s p) := by
  cases n with
  | zero => exact fun _ _ _ _ _ => ⟨nofun, nofun⟩
  | succ n =>
    rw [objects]
    exact skips_object.bind

lemma skips_properties : Skips (properties n s) := by
  cases n with
  | zero => exact fun _ _ _ _ _ => ⟨nofun, nofun⟩
  | succ n =>
    rw [properties]
    exact (show Skips verb from skips_blanks).bind

/-- Where such a step ends in front of a gap, it has found something to read before. -/
lemma Skips.begun (hx : Skips x) (hu : Gapped u) (hcut : ∀ p, Goes (Cuts k) x p)
    (h : Gives x ⟨r, w ++ u, g⟩ a ⟨r', w₂ ++ u, g'⟩) :
    ∃ c w', Begun w c w' ∧ Gives x ⟨r, c :: w' ++ u, g⟩ a ⟨r', w₂ ++ u, g'⟩ := by
  have hskip : Gives x ⟨r, skip (w ++ u), g⟩ a ⟨r', w₂ ++ u, g'⟩ := (hx ..).1 h
  obtain ⟨w₁, hw₁, -⟩ := exists_append_of_leaves (hcut _ _ _ hskip)
  obtain ⟨c, w', rfl, hbegun⟩ := begun_of_skip hu hw₁
  exact ⟨c, w', hbegun, hw₁ ▸ hskip⟩

lemma Skips.gives_iff {w' : List Char} (hx : Skips x) (h : Begun w c w') :
    Gives x ⟨r, w ++ z, g⟩ a q ↔ Gives x ⟨r, c :: w' ++ z, g⟩ a q := by
  rw [hx, h.skip]

lemma gives_pure_iff {b : α} : Gives (pure a) ⟨r, cs, g⟩ b ⟨r', rest, g'⟩ ↔
    b = a ∧ r' = r ∧ rest = cs ∧ g' = g := by
  constructor
  · rintro ⟨⟩
    exact ⟨rfl, rfl, rfl, rfl⟩
  · rintro ⟨rfl, rfl, rfl, rfl⟩
    rfl

lemma gives_blanks_cons (hc : Opens c) : Gives blanks ⟨r, c :: cs, g⟩ () ⟨r, c :: cs, g⟩ :=
  gives_gap gap_nil (skip_cons hc)

lemma gives_reference_iff {iri : String} : Gives reference ⟨r, cs, g⟩ iri ⟨r', rest, g'⟩ ↔
    ∃ written, iriReference cs = .ok (written, rest) ∧ iri = r.resolve written ∧
      r' = r ∧ g' = g := by
  constructor
  · intro h
    obtain ⟨written, m, hlex, h⟩ := gives_bind_iff.1 h
    obtain ⟨more, hl, rfl⟩ := gives_lex_iff.1 hlex
    cases h
    exact ⟨written, hl, rfl, rfl, rfl⟩
  · rintro ⟨written, hl, rfl, rfl, rfl⟩
    exact (gives_lex hl).bind (gives_get.bind gives_pure)

lemma gives_name_bracketed_iff : Gives name ⟨r, '<' :: cs, g⟩ t ⟨r', rest, g'⟩ ↔
    ∃ written, iriReference ('<' :: cs) = .ok (written, rest) ∧ t = .iri (r.resolve written) ∧
      r' = r ∧ g' = g := by
  rw [name, (gives_blanks_cons ⟨by decide, by decide⟩).bind_iff, gives_rest.bind_iff]
  constructor
  · intro h
    obtain ⟨iri, m, href, h⟩ := gives_bind_iff.1 h
    cases h
    obtain ⟨written, hl, rfl, rfl, rfl⟩ := gives_reference_iff.1 href
    exact ⟨written, hl, rfl, rfl, rfl⟩
  · rintro ⟨written, hl, rfl, rfl, rfl⟩
    exact (gives_reference_iff.2 ⟨written, hl, rfl, rfl, rfl⟩).bind gives_pure

lemma gives_name_prefixed_iff (hc : Opens c) (hne : c ≠ '<') :
    Gives name ⟨r, c :: cs, g⟩ t ⟨r', rest, g'⟩ ↔
      ∃ before more ns loc, prefixName .unexpected .noColon (c :: cs) = .ok (before, more) ∧
        r.prefixes.find? before = some ns ∧ localName (more.drop 1) = (loc, rest) ∧
        t = .iri (ns ++ loc) ∧ r' = r ∧ g' = g := by
  rw [name, (gives_blanks_cons hc).bind_iff, gives_rest.bind_iff]
  dsimp only
  split
  · rename_i hnil
    cases hnil
  · rename_i more hmore
    exact absurd (List.cons.inj hmore).1 hne
  · constructor
    · intro h
      obtain ⟨before, m, hlex, h⟩ := gives_bind_iff.1 h
      obtain ⟨more, hl, rfl⟩ := gives_lex_iff.1 hlex
      rw [gives_drop.bind_iff, gives_rest.bind_iff] at h
      dsimp only at h
      rw [gives_setRest.bind_iff, gives_get.bind_iff] at h
      dsimp only at h
      split at h
      · cases h
      · rename_i ns hns
        cases h
        exact ⟨before, more, ns, _, hl, hns, rfl, rfl, rfl, rfl⟩
    · rintro ⟨before, more, ns, loc, hl, hns, hloc, rfl, rfl, rfl⟩
      refine (gives_lex hl).bind (gives_drop.bind (gives_rest.bind ?_))
      dsimp only
      rw [hloc]
      refine gives_setRest.bind (gives_get.bind ?_)
      dsimp only
      rw [hns]
      exact gives_pure

/-- Behind a quoted text there is its language, its datatype or neither. -/
lemma gives_literal_iff : Gives literal ⟨r, cs, g⟩ t ⟨r', rest, g'⟩ ↔
    ∃ lexical more, quoted cs = .ok (lexical, more) ∧
      ((∃ tag, more = '@' :: tag ∧ rest = tag.dropWhile isTagChar ∧
          t = .langString lexical (String.ofList (tag.takeWhile isTagChar)) ∧ r' = r ∧ g' = g) ∨
        (∃ text datatype, more = '^' :: '^' :: text ∧
          Gives name ⟨r, text, g⟩ datatype ⟨r', rest, g'⟩ ∧ t = .typed lexical datatype.content) ∨
        (at' more 0 ≠ '@' ∧ ¬(at' more 0 = '^' ∧ at' more 1 = '^') ∧ rest = more ∧
          t = .string lexical ∧ r' = r ∧ g' = g)) := by
  constructor
  · intro h
    obtain ⟨lexical, m, hlex, h⟩ := gives_bind_iff.1 h
    obtain ⟨more, hl, rfl⟩ := gives_lex_iff.1 hlex
    refine ⟨lexical, more, hl, ?_⟩
    rw [gives_rest.bind_iff] at h
    dsimp only at h
    split at h
    · rename_i tag
      cases h
      exact .inl ⟨tag, rfl, rfl, rfl, rfl, rfl⟩
    · rename_i text
      rw [gives_setRest.bind_iff] at h
      obtain ⟨datatype, m, hname, h⟩ := gives_bind_iff.1 h
      cases h
      exact .inr (.inl ⟨text, datatype, rfl, hname, rfl⟩)
    · rename_i hat hcaret
      cases h
      refine .inr (.inr ⟨fun hfirst => ?_, fun hboth => ?_, rfl, rfl, rfl, rfl⟩)
      · obtain ⟨tag, htag⟩ := exists_cons_of_at' hfirst (by decide)
        exact hat tag htag
      · obtain ⟨text, htext⟩ := exists_cons_of_at' hboth.1 (by decide)
        obtain ⟨text', htext'⟩ := exists_cons_of_at' hboth.2 (by decide)
        obtain rfl : rest = '^' :: text := htext
        obtain rfl : text = '^' :: text' := htext'
        exact hcaret text' rfl
  · rintro ⟨lexical, more, hl, h⟩
    refine (gives_lex hl).bind (gives_rest.bind ?_)
    rcases h with ⟨tag, rfl, rfl, rfl, rfl, rfl⟩ | ⟨text, datatype, rfl, hname, rfl⟩ |
      ⟨hat, hcaret, rfl, rfl, rfl, rfl⟩
    · exact gives_setRest.bind gives_pure
    · exact gives_setRest.bind (hname.bind gives_pure)
    · dsimp only
      split
      · exact absurd rfl hat
      · exact absurd ⟨rfl, rfl⟩ hcaret
      · exact gives_pure

lemma gives_verb_iff (hc : Opens c) : Gives verb ⟨r, c :: cs, g⟩ t q ↔
    IsShort (c :: cs) ∧ t = .iri Vocabulary.rdfType ∧ q = ⟨r, cs, g⟩ ∨
      ¬IsShort (c :: cs) ∧ Gives name ⟨r, c :: cs, g⟩ t q := by
  rw [verb, (gives_blanks_cons hc).bind_iff, gives_ahead.bind_iff, gives_ahead.bind_iff]
  by_cases hshort : IsShort (c :: cs)
  · rw [if_pos (isShort_iff.1 hshort), gives_drop.bind_iff]
    constructor
    · rintro ⟨⟩
      exact .inl ⟨hshort, rfl, rfl⟩
    · rintro (⟨-, rfl, rfl⟩ | ⟨h, -⟩)
      · rfl
      · exact absurd hshort h
  · rw [if_neg fun h => hshort (isShort_iff.2 h)]
    constructor
    · exact fun h => .inr ⟨hshort, h⟩
    · rintro (⟨h, -⟩ | ⟨-, h⟩)
      · exact absurd h hshort
      · exact h

lemma gives_expect_iff (hc : Opens c) {wanted : Char} :
    Gives (expect wanted) ⟨r, c :: cs, g⟩ () q ↔ c = wanted ∧ q = ⟨r, cs, g⟩ := by
  rw [expect, (gives_blanks_cons hc).bind_iff, gives_rest.bind_iff]
  dsimp only
  split
  · rename_i h
    subst h
    constructor
    · rintro ⟨⟩
      exact ⟨rfl, rfl⟩
    · rintro ⟨-, rfl⟩
      rfl
  · rename_i h
    constructor
    · rintro ⟨⟩
    · rintro ⟨h', -⟩
      exact absurd h' h

/-! ### Steps that leave the text alone -/

/-- The step does the same whatever the text is. -/
def Blind (x : Step α) : Prop := ∀ r cs g a q, Gives x ⟨r, cs, g⟩ a q →
  q.rest = cs ∧ ∀ z, Gives x ⟨r, z, g⟩ a ⟨q.reader, z, q.graph⟩

lemma blind_pure {a : α} : Blind (pure a) := by
  rintro r cs g b q ⟨⟩
  exact ⟨rfl, fun _ => rfl⟩

lemma Blind.bind (hx : Blind x) (hf : ∀ a, Blind (f a)) : Blind (x >>= f) := by
  intro r cs g b q h
  obtain ⟨a, m, hxm, hfq⟩ := gives_bind_iff.1 h
  obtain ⟨hrest, hm⟩ := hx r cs g a m hxm
  obtain ⟨hrest', hq⟩ := hf a m.reader m.rest m.graph b q hfq
  exact ⟨hrest'.trans hrest, fun z => (hm z).bind (hq z)⟩

lemma blind_freshBlank : Blind freshBlank := by
  rintro r cs g t q ⟨⟩
  exact ⟨rfl, fun _ => rfl⟩

lemma blind_emit : Blind (emit s p t) := by
  rintro r cs g a q ⟨⟩
  exact ⟨rfl, fun _ => rfl⟩

lemma Blind.mapM {l : List β} {f : β → Step α} (h : ∀ b ∈ l, Blind (f b)) : Blind (l.mapM f) := by
  induction l with
  | nil => exact blind_pure
  | cons b l ih =>
    rw [List.mapM_cons]
    exact (h b (by simp)).bind fun _ => (ih fun c hc => h c (by simp [hc])).bind fun _ => blind_pure

lemma blind_emitCells {cells : List (Term × Term)} : Blind (emitCells cells) := by
  induction cells with
  | nil => exact blind_pure
  | cons c more ih => exact blind_emit.bind fun _ => blind_emit.bind fun _ => ih

lemma blind_collectionOf : Blind (collectionOf ts) :=
  (Blind.mapM fun _ _ => blind_freshBlank).bind fun _ => blind_emitCells.bind fun _ => blind_pure

/-! ### Terms in front of a point -/

section Closing

variable (hu : Gapped u) (hv : Closing u v)

include hu hv

omit hu hv in
lemma pure_closing {b : α} (h : Gives (pure a) ⟨r, w ++ u, g⟩ b ⟨r', w₂ ++ u, g'⟩) :
    Gives (pure a) ⟨r, w ++ v, g⟩ b ⟨r', w₂ ++ v, g'⟩ := by
  obtain ⟨rfl, rfl, hrest, rfl⟩ := gives_pure_iff.1 h
  obtain rfl := (List.append_left_inj u).1 hrest
  exact gives_pure

lemma name_closing_cons (hc : Opens c)
    (h : Gives name ⟨r, c :: w ++ u, g⟩ t ⟨r', w₂ ++ u, g'⟩) :
    Gives name ⟨r, c :: w ++ v, g⟩ t ⟨r', w₂ ++ v, g'⟩ := by
  by_cases hbracket : c = '<'
  · subst hbracket
    obtain ⟨written, hl, ht⟩ := gives_name_bracketed_iff.1 h
    exact gives_name_bracketed_iff.2 ⟨written, iriReference_closing (w := '<' :: w) hl, ht⟩
  · obtain ⟨before, more, ns, loc, hl, hns, hloc, ht⟩ := (gives_name_prefixed_iff hc hbracket).1 h
    have hrest : Leaves 0 more (w₂ ++ u) := by
      have hleaves : Leaves 0 (more.drop 1) (localName (more.drop 1)).2 := leaves_localName
      rw [hloc] at hleaves
      exact leaves_drop.trans hleaves
    obtain ⟨w₁, rfl, -⟩ := exists_append_of_leaves hrest
    obtain ⟨w₁, rfl⟩ : ∃ w₃, w₁ = ':' :: w₃ := by
      have hcolon := (leaves_prefixName hl).2
      cases w₁ with
      | nil =>
        have hfirst : (at' u 0 == ':') = false := hu.at'_zero (p := (· == ':')) (by decide)
        exact absurd hcolon (by simpa using hfirst)
      | cons d w₃ =>
        obtain rfl : d = ':' := hcolon
        exact ⟨w₃, rfl⟩
    exact (gives_name_prefixed_iff hc hbracket).2 ⟨before, ':' :: w₁ ++ v, ns, loc,
      prefixName_closing (w := c :: w) hu hl, hns, localName_closing hu hv hloc, ht⟩

lemma name_closing (h : Gives name ⟨r, w ++ u, g⟩ t ⟨r', w₂ ++ u, g'⟩) :
    Gives name ⟨r, w ++ v, g⟩ t ⟨r', w₂ ++ v, g'⟩ := by
  obtain ⟨c, w', hbegun, h⟩ := skips_blanks.begun hu (fun _ => uses_name.toCuts) h
  exact (skips_blanks.gives_iff hbegun).2 (name_closing_cons hu hv hbegun.opens h)

lemma labelled_closing (h : Gives labelled ⟨r, c :: d :: w ++ u, g⟩ t ⟨r', w₂ ++ u, g'⟩) :
    Gives labelled ⟨r, c :: d :: w ++ v, g⟩ t ⟨r', w₂ ++ v, g'⟩ := by
  rw [labelled, gives_drop.bind_iff] at h
  obtain ⟨label, m, hlex, h⟩ := gives_bind_iff.1 h
  obtain ⟨more, hl, rfl⟩ := gives_lex_iff.1 hlex
  cases h
  exact gives_drop.bind ((gives_lex (blankLabel_closing hu hv hl)).bind (gives_get.bind gives_pure))

lemma literal_closing (hc : isQuote c = true)
    (h : Gives literal ⟨r, c :: w ++ u, g⟩ t ⟨r', w₂ ++ u, g'⟩) :
    Gives literal ⟨r, c :: w ++ v, g⟩ t ⟨r', w₂ ++ v, g'⟩ := by
  obtain ⟨lexical, more, hl, h⟩ := gives_literal_iff.1 h
  have hquoted (w₁ : List Char) (hmore : more = w₁ ++ u) :
      quoted (c :: w ++ v) = .ok (lexical, w₁ ++ v) :=
    quoted_closing (w := c :: w) hu hv hc (hmore ▸ hl)
  rcases h with ⟨tag, rfl, hrest, rfl, rfl, rfl⟩ | ⟨text, datatype, rfl, hname, rfl⟩ |
    ⟨hat, hcaret, rfl, rfl, rfl, rfl⟩
  · obtain ⟨w₁, rfl, -⟩ := exists_append_of_leaves (hrest ▸ leaves_dropWhile)
    obtain ⟨htag, w₃, hdrop, hdrop'⟩ := tag_closing (w := w₁) (p := isTagChar) hu hv (by decide)
      (by decide)
    obtain rfl := List.append_cancel_right (hrest.trans hdrop)
    refine gives_literal_iff.2 ⟨lexical, _, hquoted ('@' :: w₁) rfl, .inl ?_⟩
    exact ⟨w₁ ++ v, rfl, hdrop'.symm, by rw [htag], rfl, rfl⟩
  · obtain ⟨w₁, rfl, -⟩ := exists_append_of_leaves (uses_name.toCuts _ _ hname)
    refine gives_literal_iff.2 ⟨lexical, _, hquoted ('^' :: '^' :: w₁) rfl, .inr (.inl ?_)⟩
    exact ⟨w₁ ++ v, datatype, rfl, name_closing hu hv hname, rfl⟩
  · refine gives_literal_iff.2 ⟨lexical, _, hquoted _ rfl, .inr (.inr ⟨?_, ?_, rfl, rfl, rfl, rfl⟩)⟩
    · rwa [ne_eq, at'_zero_closing hu hv (by decide) (by decide)]
    · rwa [twice_closing hu hv (by decide) (by decide)]

omit hu in
/-- A point does not make the letter in front of it the short form of a predicate. -/
lemma isShort_closing (h : IsShort (c :: w ++ v)) : IsShort (c :: w ++ u) := by
  obtain ⟨d, more, htext, hd⟩ := h
  obtain ⟨rfl, hrest⟩ := List.cons.inj htext
  cases w with
  | nil =>
    cases hv with
    | same => exact ⟨d, more, htext, hd⟩
    | point =>
      obtain ⟨rfl, -⟩ := List.cons.inj hrest
      exact absurd hd (by decide)
  | cons e w =>
    obtain ⟨rfl, -⟩ := List.cons.inj hrest
    exact ⟨e, w ++ u, rfl, hd⟩

/-- A predicate that ends in front of something more than a gap. -/
lemma verb_closing (hw : w₂ ≠ []) (h : Gives verb ⟨r, w ++ u, g⟩ t ⟨r', w₂ ++ u, g'⟩) :
    Gives verb ⟨r, w ++ v, g⟩ t ⟨r', w₂ ++ v, g'⟩ := by
  obtain ⟨c, w', hbegun, h⟩ := skips_blanks.begun hu (fun _ => uses_verb.toCuts) h
  refine (skips_blanks.gives_iff hbegun).2 ((gives_verb_iff hbegun.opens).2 ?_)
  rcases (gives_verb_iff hbegun.opens).1 h with ⟨hshort, rfl, hq⟩ | ⟨hshort, hname⟩
  · obtain ⟨rfl, hrest, rfl⟩ := Progress.mk.inj hq
    obtain rfl := List.append_cancel_right hrest
    refine .inl ⟨?_, rfl, rfl⟩
    obtain ⟨d, more, htext, hd⟩ := hshort
    obtain ⟨e, w₃, rfl⟩ := List.exists_cons_of_ne_nil hw
    obtain ⟨rfl, hrest⟩ := List.cons.inj htext
    obtain ⟨rfl, -⟩ := List.cons.inj hrest
    exact ⟨e, w₃ ++ v, rfl, hd⟩
  · exact .inr ⟨fun h => hshort (isShort_closing hv h), name_closing (w := c :: w') hu hv hname⟩

omit hv in
lemma expect_closing (h : Gives (expect d) ⟨r, w ++ u, g⟩ () ⟨r', w₂ ++ u, g'⟩) :
    Gives (expect d) ⟨r, w ++ v, g⟩ () ⟨r', w₂ ++ v, g'⟩ := by
  obtain ⟨c, w', hbegun, h⟩ := skips_blanks.begun hu (fun _ => uses_expect.toCuts) h
  obtain ⟨hc, hq⟩ := (gives_expect_iff hbegun.opens).1 h
  obtain ⟨rfl, hrest, rfl⟩ := Progress.mk.inj hq
  obtain rfl := List.append_cancel_right hrest
  exact (skips_blanks.gives_iff hbegun).2 ((gives_expect_iff hbegun.opens).2 ⟨hc, rfl⟩)

end Closing

/-! ### Nested terms in front of a point -/

lemma isTruth_of_truth? {w' : List Char} (h : Begun w c w')
    (htruth : truth? (c :: w' ++ u) = some (t, u)) : IsTruth w := by
  obtain ⟨⟨b, -, hword⟩, -⟩ := truth?_eq_some_iff.1 htruth
  have hskip := h.skip []
  rw [List.append_nil, List.append_nil, List.append_cancel_right hword] at hskip
  exact ⟨b, hskip⟩

/-- A node in brackets, behind the opening one. -/
def inBrackets (n : Nat) : Step Term := do
  let node ← freshBlank
  blanks
  if (← ahead 0) != ']' then properties n node
  expect ']'
  return node

/-- A truth value or a name. -/
def truthOrName : Step Term := do
  match truth? (← Step.rest) with
  | some (t, cs) => setRest cs; return t
  | none => name

/-- An object, by its first two characters. -/
def objectOf (n : Nat) (c d : Char) : Step Term :=
  if c == '[' then drop 1 >>= fun _ => inBrackets n
  else if c == '(' then drop 1 >>= fun _ => blanks >>= fun _ => items n >>= collectionOf
  else if c == '_' && d == ':' then labelled
  else if c == '"' || c == '\'' then literal
  else if c.isDigit || isSign c || (c == '.' && d.isDigit) then lex numeral
  else truthOrName

lemma gives_object_cons_iff {q : Progress} (hc : Opens c) :
    Gives (object (n + 1)) ⟨r, c :: cs, g⟩ t q ↔
      Gives (objectOf n c (at' cs 0)) ⟨r, c :: cs, g⟩ t q := by
  rw [object, (gives_blanks_cons hc).bind_iff, gives_ahead.bind_iff, gives_ahead.bind_iff]
  exact .rfl

/-- What follows the objects of a predicate. -/
def listEnd (n : Nat) (s : Term) : Step Unit := do
  blanks
  if (← ahead 0) == ';' then
    modify fun p => { p with rest := skipSemicolons p.rest }
    let next ← ahead 0
    if next == '.' || next == ']' || (← atEnd) then return
    else properties n s

lemma gives_properties_iff : Gives (properties (n + 1) s) p' () q ↔
    ∃ p p₁ p₂, Gives verb p' p p₁ ∧ Gives (objects n s p) p₁ () p₂ ∧
      Gives (listEnd n s) p₂ () q := by
  rw [properties, gives_bind_iff]
  simp only [gives_seq_iff (x := objects _ _ _)]
  constructor
  · rintro ⟨p, p₁, hverb, p₂, hobjects, hend⟩
    exact ⟨p, p₁, p₂, hverb, hobjects, hend⟩
  · rintro ⟨p, p₁, p₂, hverb, hobjects, hend⟩
    exact ⟨p, p₁, hverb, p₂, hobjects, hend⟩

lemma skips_listEnd : Skips (listEnd n s) := skips_blanks

lemma cuts_listEnd {p : Progress} : Goes (Cuts 0) (listEnd n s) p := by
  refine uses_blanks.toCuts.cuts fun _ _ _ => uses_ahead.toCuts.cuts fun c _ _ => ?_
  split_ifs
  · have hsemicolons : ∀ q, Goes (Cuts 0)
        (modify fun p => { p with rest := skipSemicolons p.rest } : Step Unit) q :=
      fun q => goes_modify leaves_skipFrom
    refine (hsemicolons _).cuts fun _ _ _ => uses_ahead.toCuts.cuts fun next _ _ => ?_
    refine uses_atEnd.toCuts.cuts fun e _ _ => ?_
    split_ifs
    · exact cuts_pure
    · exact (cutting n).properties s _
  · exact cuts_pure

/-- What the four readers that call each other read in front of a point, with enough fuel for the
text up to there. An object that ends there is no truth value. -/
structure InFront (u v : List Char) (n : Nat) : Prop where
  object : ∀ m r w g t r' w₂ g', 3 * w.length + 1 ≤ m → (w₂ = [] → v = u ∨ ¬IsTruth w) →
    Gives (object n) ⟨r, w ++ u, g⟩ t ⟨r', w₂ ++ u, g'⟩ →
      Gives (object m) ⟨r, w ++ v, g⟩ t ⟨r', w₂ ++ v, g'⟩
  items : ∀ m r w g ts r' w₂ g', 3 * w.length + 2 ≤ m →
    Gives (items n) ⟨r, w ++ u, g⟩ ts ⟨r', w₂ ++ u, g'⟩ →
      Gives (items m) ⟨r, w ++ v, g⟩ ts ⟨r', w₂ ++ v, g'⟩
  objects : ∀ m s p r w g r' w₂ g', 3 * w.length + 2 ≤ m →
    Gives (objects n s p) ⟨r, w ++ u, g⟩ () ⟨r', w₂ ++ u, g'⟩ →
      Gives (objects m s p) ⟨r, w ++ v, g⟩ () ⟨r', w₂ ++ v, g'⟩
  properties : ∀ m s r w g r' w₂ g', 3 * w.length + 3 ≤ m →
    Gives (properties n s) ⟨r, w ++ u, g⟩ () ⟨r', w₂ ++ u, g'⟩ →
      Gives (properties m s) ⟨r, w ++ v, g⟩ () ⟨r', w₂ ++ v, g'⟩

section InFront

variable (hu : Gapped u) (hv : Closing u v) (h : InFront u v n)

include hu h

lemma InFront.objects_succ (hm : 3 * w.length + 2 ≤ m)
    (hx : Gives (Step.objects (n + 1) s p) ⟨r, w ++ u, g⟩ () ⟨r', w₂ ++ u, g'⟩) :
    Gives (Step.objects m s p) ⟨r, w ++ v, g⟩ () ⟨r', w₂ ++ v, g'⟩ := by
  obtain ⟨m, rfl⟩ : ∃ m', m = m' + 1 := ⟨m - 1, by omega⟩
  rw [Step.objects] at hx ⊢
  obtain ⟨o, ⟨r₁, cs, g₁⟩, hobject, hx⟩ := gives_bind_iff.1 hx
  rw [gives_emit.bind_iff, gives_blanks.bind_iff, gives_ahead.bind_iff] at hx
  dsimp only at hx
  have hcut : Leaves 0 (skip cs) (w₂ ++ u) := by
    split at hx
    · rw [gives_drop.bind_iff] at hx
      exact leaves_drop.trans ((cutting n).objects s p _ _ _ hx)
    · exact cuts_pure _ _ hx
  obtain ⟨w₁, c, w', rfl, hbegun⟩ := exists_begun hu hcut
  have hlength := length_le_of_leaves ((cutting n).object _ _ _ hobject)
  have hlength' := hbegun.length_le
  have hobject' : Gives (Step.object m) ⟨r, w ++ v, g⟩ o ⟨r₁, w₁ ++ v, g₁⟩ :=
    h.object m r w g o r₁ w₁ g₁ (by omega) (fun hnil => absurd hnil hbegun.ne_nil) hobject
  refine hobject'.bind (gives_emit.bind (gives_blanks.bind (gives_ahead.bind ?_)))
  dsimp only
  rw [hbegun.skip, List.cons_append, at'_zero] at hx ⊢
  by_cases hcomma : (c == ',') = true
  · rw [if_pos hcomma, gives_drop.bind_iff] at hx ⊢
    exact h.objects m s p r₁ w' _ r' w₂ g' (by omega) hx
  · rw [if_neg hcomma] at hx ⊢
    exact pure_closing (w := c :: w') hx

include hv

lemma InFront.items_succ (hm : 3 * w.length + 2 ≤ m)
    (hx : Gives (Step.items (n + 1)) ⟨r, w ++ u, g⟩ ts ⟨r', w₂ ++ u, g'⟩) :
    Gives (Step.items m) ⟨r, w ++ v, g⟩ ts ⟨r', w₂ ++ v, g'⟩ := by
  obtain ⟨m, rfl⟩ : ∃ m', m = m' + 1 := ⟨m - 1, by omega⟩
  have hfirst : (at' (w ++ v) 0 == ')') = (at' (w ++ u) 0 == ')') := by
    rw [Bool.eq_iff_iff, beq_iff_eq, beq_iff_eq]
    exact at'_zero_closing hu hv (by decide) (by decide)
  rw [Step.items, gives_ahead.bind_iff] at hx ⊢
  dsimp only at hx ⊢
  rw [hfirst]
  split at hx
  · rename_i hclose
    rw [if_pos hclose, gives_drop.bind_iff]
    rw [gives_drop.bind_iff] at hx
    obtain ⟨rfl, rfl, hrest, rfl⟩ := gives_pure_iff.1 hx
    cases w with
    | nil =>
      have hgap := hu.at'_zero (p := (· == ')')) (by decide)
      cases hgap.symm.trans hclose
    | cons c w =>
      obtain rfl : w₂ = w := (List.append_left_inj u).1 hrest
      exact gives_pure
  · rename_i hclose
    have hempty {z : List Char} (hz : z ≠ []) : ¬(w ++ z).isEmpty = true := by simp [hz]
    rw [if_neg hclose, gives_atEnd.bind_iff]
    rw [gives_atEnd.bind_iff, if_neg (hempty hu.ne_nil)] at hx
    rw [if_neg (hempty (hv.ne_nil hu))]
    obtain ⟨o, ⟨r₁, cs, g₁⟩, hobject, hx⟩ := gives_bind_iff.1 hx
    rw [gives_blanks.bind_iff] at hx
    obtain ⟨os, ⟨r₂, cs₂, g₂⟩, hitems, hx⟩ := gives_bind_iff.1 hx
    cases hx
    obtain ⟨w₁, c, w', rfl, hbegun⟩ := exists_begun hu ((cutting n).items _ _ _ hitems)
    have hlength := length_le_of_leaves ((cutting n).object _ _ _ hobject)
    have hlength' := hbegun.length_le
    have hobject' : Gives (Step.object m) ⟨r, w ++ v, g⟩ o ⟨r₁, w₁ ++ v, g₁⟩ :=
      h.object m r w g o r₁ w₁ g₁ (by omega) (fun hnil => absurd hnil hbegun.ne_nil) hobject
    refine hobject'.bind (gives_blanks.bind ?_)
    dsimp only at hitems ⊢
    rw [hbegun.skip] at hitems ⊢
    exact (h.items m r₁ (c :: w') g₁ os r' w₂ g' (by simp only [List.length_cons]; omega)
      hitems).bind gives_pure

omit hv in
lemma InFront.listEnd (hm : 3 * w.length ≤ m)
    (hx : Gives (Step.listEnd n s) ⟨r, w ++ u, g⟩ () ⟨r', w₂ ++ u, g'⟩) :
    Gives (Step.listEnd m s) ⟨r, w ++ v, g⟩ () ⟨r', w₂ ++ v, g'⟩ := by
  obtain ⟨c, w', hbegun, hfrom⟩ := skips_listEnd.begun hu (fun _ => cuts_listEnd) hx
  have hlength := hbegun.length_le
  rw [skips_listEnd.gives_iff hbegun]
  rw [Step.listEnd, List.cons_append, (gives_blanks_cons hbegun.opens).bind_iff,
    gives_ahead.bind_iff] at hfrom ⊢
  dsimp only at hfrom ⊢
  rw [at'_zero] at hfrom ⊢
  by_cases hsemicolon : (c == ';') = true
  · rw [if_pos hsemicolon, gives_modify.bind_iff, gives_ahead.bind_iff, gives_atEnd.bind_iff]
      at hfrom ⊢
    dsimp only at hfrom ⊢
    have hleaves : Leaves 0 (skipSemicolons (c :: w' ++ u)) (w₂ ++ u) := by
      split at hfrom
      · exact cuts_pure _ _ hfrom
      · exact (cutting n).properties s _ _ _ hfrom
    obtain ⟨w₃, hw₃, -⟩ := exists_append_of_leaves hleaves
    have hskip : skipFrom (fun c => isBlank c || c == ';') false (c :: w' ++ u) = w₃ ++ u := hw₃
    obtain ⟨hne, hz⟩ := skipFrom_closing (fun c hc => by simp [hc]) hu hskip
    have hlength₃ : w₃.length + 1 ≤ (c :: w').length :=
      length_le_of_leaves (hw₃ ▸ leaves_skipSemicolons (beq_iff_eq.1 hsemicolon :
        at' (c :: w' ++ u) 0 = ';'))
    obtain ⟨e, w₄, rfl⟩ := List.exists_cons_of_ne_nil hne
    simp only [← List.cons_append, skipSemicolons, hz] at hfrom ⊢
    have hnext {z : List Char} : (at' (e :: w₄ ++ z) 0 == '.' || at' (e :: w₄ ++ z) 0 == ']' ||
        (e :: w₄ ++ z).isEmpty) = (e == '.' || e == ']') := by simp [at'_zero]
    rw [hnext] at hfrom ⊢
    by_cases hstop : (e == '.' || e == ']') = true
    · rw [if_pos hstop] at hfrom ⊢
      exact pure_closing hfrom
    · rw [if_neg hstop] at hfrom ⊢
      refine h.properties m s r (e :: w₄) g r' w₂ g' ?_ hfrom
      simp only [List.length_cons] at hlength₃ ⊢
      omega
  · rw [if_neg hsemicolon] at hfrom ⊢
    exact pure_closing (w := c :: w') hfrom

lemma InFront.properties_succ (hm : 3 * w.length + 3 ≤ m)
    (hx : Gives (Step.properties (n + 1) s) ⟨r, w ++ u, g⟩ () ⟨r', w₂ ++ u, g'⟩) :
    Gives (Step.properties m s) ⟨r, w ++ v, g⟩ () ⟨r', w₂ ++ v, g'⟩ := by
  obtain ⟨m, rfl⟩ : ∃ m', m = m' + 1 := ⟨m - 1, by omega⟩
  rw [gives_properties_iff] at hx ⊢
  obtain ⟨p, ⟨r₁, cs₁, g₁⟩, ⟨r₂, cs₂, g₂⟩, hverb, hobjects, hend⟩ := hx
  obtain ⟨w₃, rfl, -⟩ := exists_append_of_leaves (cuts_listEnd _ _ hend)
  obtain ⟨w₁, rfl, hlength⟩ := exists_append_of_leaves ((cutting n).objects s p _ _ _ hobjects)
  obtain ⟨d, w', hbegun, -⟩ :=
    skips_objects.begun hu (fun q => (cutting n).objects s p q) hobjects
  have hlength₁ := length_le_of_leaves (uses_verb.toCuts _ _ hverb)
  have hobjects' : Gives (Step.objects m s p) ⟨r₁, w₁ ++ v, g₁⟩ () ⟨r₂, w₃ ++ v, g₂⟩ :=
    h.objects m s p r₁ w₁ g₁ r₂ w₃ g₂ (by omega) hobjects
  exact ⟨p, _, _, verb_closing hu hv hbegun.ne_nil hverb, hobjects',
    h.listEnd hu (by omega) hend⟩

omit hv in
lemma InFront.inBrackets (hm : 3 * w.length + 3 ≤ m)
    (hx : Gives (Step.inBrackets n) ⟨r, w ++ u, g⟩ t ⟨r', w₂ ++ u, g'⟩) :
    Gives (Step.inBrackets m) ⟨r, w ++ v, g⟩ t ⟨r', w₂ ++ v, g'⟩ := by
  obtain ⟨node, ⟨r₁, cs, g₁⟩, hfresh, hmore⟩ := gives_bind_iff.1 hx
  obtain ⟨hrest, hfresh'⟩ := blind_freshBlank _ _ _ _ _ hfresh
  obtain rfl : cs = w ++ u := hrest
  rw [gives_blanks.bind_iff, gives_ahead.bind_iff] at hmore
  have hclose {q : Progress} (hq : Gives (do Step.expect ']'; pure node) q t ⟨r', w₂ ++ u, g'⟩) :
      Leaves 1 q.rest (w₂ ++ u) :=
    (uses_expect.toCuts.cuts fun _ _ _ => cuts_pure) _ _ hq
  have hcut : Leaves 0 (skip (w ++ u)) (w₂ ++ u) := by
    dsimp only at hmore
    split at hmore
    · obtain ⟨_, q, hproperties, hq⟩ := gives_bind_iff.1 hmore
      exact ((cutting n).properties node _ _ _ hproperties).trans
        ((hclose hq).weaken (Nat.zero_le 1))
    · exact (hclose hmore).weaken (Nat.zero_le 1)
  obtain ⟨w₁, c, w', hw₁, hbegun⟩ := exists_begun hu hcut
  obtain rfl := List.append_cancel_right hw₁
  refine (hfresh' _).bind (gives_blanks.bind (gives_ahead.bind ?_))
  dsimp only at hmore ⊢
  rw [hbegun.skip, List.cons_append, at'_zero] at hmore ⊢
  have hclosing {w : List Char} {r : Reader} {g : Graph}
      (hq : Gives (do Step.expect ']'; pure node) ⟨r, w ++ u, g⟩ t ⟨r', w₂ ++ u, g'⟩) :
      Gives (do Step.expect ']'; pure node) ⟨r, w ++ v, g⟩ t ⟨r', w₂ ++ v, g'⟩ := by
    obtain ⟨_, q, hexpect, hpure⟩ := gives_bind_iff.1 hq
    cases hpure
    exact (expect_closing hu hexpect).bind gives_pure
  by_cases hlist : (c != ']') = true
  · rw [if_pos hlist] at hmore ⊢
    obtain ⟨_, ⟨r₂, cs₂, g₂⟩, hproperties, hq⟩ := gives_bind_iff.1 hmore
    obtain ⟨w₃, rfl, -⟩ := exists_append_of_leaves (hclose hq)
    have hlength := hbegun.length_le
    have hproperties' := h.properties m node r₁ (c :: w') g₁ r₂ w₃ g₂
      (by simp only [List.length_cons]; omega) hproperties
    exact hproperties'.bind (hclosing hq)
  · rw [if_neg hlist] at hmore ⊢
    exact hclosing (w := c :: w') hmore

lemma InFront.object_succ (hm : 3 * w.length + 1 ≤ m) (hfinal : w₂ = [] → v = u ∨ ¬IsTruth w)
    (hx : Gives (Step.object (n + 1)) ⟨r, w ++ u, g⟩ t ⟨r', w₂ ++ u, g'⟩) :
    Gives (Step.object m) ⟨r, w ++ v, g⟩ t ⟨r', w₂ ++ v, g'⟩ := by
  obtain ⟨m, rfl⟩ : ∃ m', m = m' + 1 := ⟨m - 1, by omega⟩
  obtain ⟨c, w', hbegun, hfrom⟩ := skips_object.begun hu (fun q => (cutting (n + 1)).object q) hx
  refine (skips_object.gives_iff hbegun).2 ?_
  have hlength := hbegun.length_le
  rw [List.cons_append, gives_object_cons_iff hbegun.opens] at hfrom ⊢
  have hcolon : (at' (w' ++ v) 0 == ':') = (at' (w' ++ u) 0 == ':') := by
    rw [Bool.eq_iff_iff, beq_iff_eq, beq_iff_eq]
    exact at'_zero_closing hu hv (by decide) (by decide)
  have hdigit : (at' (w' ++ v) 0).isDigit = (at' (w' ++ u) 0).isDigit := by
    cases w' with
    | nil =>
      have hgaps : gaps.any Char.isDigit = false := by decide
      exact (hv.at'_zero hu hgaps (by decide)).trans (hu.at'_zero hgaps).symm
    | cons => rfl
  unfold objectOf at hfrom ⊢
  rw [hcolon, hdigit]
  by_cases hbracket : (c == '[') = true
  · rw [if_pos hbracket, gives_drop.bind_iff] at hfrom ⊢
    exact h.inBrackets hu (by omega) hfrom
  rw [if_neg hbracket] at hfrom ⊢
  by_cases hparen : (c == '(') = true
  · rw [if_pos hparen, gives_drop.bind_iff, gives_blanks.bind_iff] at hfrom ⊢
    obtain ⟨ts, ⟨r₁, cs, g₁⟩, hitems, hcollection⟩ := gives_bind_iff.1 hfrom
    obtain ⟨hrest, hcollection'⟩ := blind_collectionOf _ _ _ _ _ hcollection
    obtain rfl : w₂ ++ u = cs := hrest
    obtain ⟨w₁, d, w'', hw₁, hbegun'⟩ := exists_begun hu ((cutting n).items _ _ _ hitems)
    obtain rfl := List.append_cancel_right hw₁
    have hlength' := hbegun'.length_le
    rw [List.drop_one, List.tail_cons, hbegun'.skip] at hitems ⊢
    refine (h.items m r (d :: w'') g ts r₁ w₂ g₁ ?_ hitems).bind (hcollection' _)
    simp only [List.length_cons]
    omega
  rw [if_neg hparen] at hfrom ⊢
  by_cases hlabel : (c == '_' && at' (w' ++ u) 0 == ':') = true
  · rw [if_pos hlabel] at hfrom ⊢
    cases w' with
    | nil =>
      have hgap : (at' u 0 == ':') = false := hu.at'_zero (p := (· == ':')) (by decide)
      simp [hgap] at hlabel
    | cons d w' => exact labelled_closing hu hv hfrom
  rw [if_neg hlabel] at hfrom ⊢
  by_cases hquote : (c == '"' || c == '\'') = true
  · rw [if_pos hquote] at hfrom ⊢
    exact literal_closing hu hv hquote hfrom
  rw [if_neg hquote] at hfrom ⊢
  by_cases hnumber : (c.isDigit || isSign c || (c == '.' && (at' (w' ++ u) 0).isDigit)) = true
  · rw [if_pos hnumber] at hfrom ⊢
    obtain ⟨rest, hl, hq⟩ := gives_lex_iff.1 hfrom
    obtain ⟨rfl, rfl, rfl⟩ := Progress.mk.inj hq
    exact gives_lex (numeral_closing (w := c :: w') hu hv hl)
  rw [if_neg hnumber, truthOrName, gives_rest.bind_iff] at hfrom ⊢
  dsimp only at hfrom ⊢
  split at hfrom
  · rename_i t' rest htruth
    rw [gives_setRest.bind_iff] at hfrom
    obtain ⟨rfl, rfl, rfl, rfl⟩ := gives_pure_iff.1 hfrom
    have htruth' : truth? (c :: (w' ++ v)) = some (t, w₂ ++ v) := by
      by_cases hw : w₂ = []
      · rcases hfinal hw with rfl | hnot
        · exact htruth
        · exact absurd (isTruth_of_truth? hbegun (hw ▸ htruth)) hnot
      · exact truth?_closing (w := c :: w') hw htruth
    rw [htruth']
    exact gives_setRest.bind gives_pure
  · rename_i htruth
    rw [← List.cons_append, truth?_eq_none_closing hv (w := c :: w') htruth]
    exact name_closing_cons hu hv hbegun.opens hfrom

end InFront

/-- Each of the four calls the others with less fuel, so the induction is on the fuel of all. -/
lemma inFront (hu : Gapped u) (hv : Closing u v) (n : Nat) : InFront u v n := by
  induction n with
  | zero =>
    exact ⟨fun _ _ _ _ _ _ _ _ _ _ => nofun, fun _ _ _ _ _ _ _ _ _ => nofun,
      fun _ _ _ _ _ _ _ _ _ _ => nofun, fun _ _ _ _ _ _ _ _ _ => nofun⟩
  | succ n ih =>
    exact ⟨fun _ _ _ _ _ _ _ _ hm hfinal => ih.object_succ hu hv hm hfinal,
      fun _ _ _ _ _ _ _ _ hm => ih.items_succ hu hv hm,
      fun _ _ _ _ _ _ _ _ _ hm => ih.objects_succ hu hm,
      fun _ _ _ _ _ _ _ _ hm => ih.properties_succ hu hv hm⟩

end Step

end Semlift.Rdf.Turtle
